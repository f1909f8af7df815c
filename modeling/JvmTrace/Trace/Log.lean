import JvmTrace.Trace.Basic

/-!
# The log — what tracing a file has to say on the way

Tracing itself is a function and says nothing. Its progress is a list of `Event`s, in the order in
which the work is done, which ends where the work fails: an event is there exactly if everything before
it succeeded. Which events are written out is decided by the level set for the part of the program
that they come from, and never changes what is traced.
-/

set_option autoImplicit false

namespace JvmTrace

/-- How important an event is; as a setting, the least important kind of event that is written out. -/
inductive Level where
  | off
  | error
  | warn
  | info
  | debug
  | trace
  deriving DecidableEq

namespace Level

/-- The greater, the more is written out. -/
def verbosity : Level → Nat
  | off => 0
  | error => 1
  | warn => 2
  | info => 3
  | debug => 4
  | trace => 5

/-- The name of a level, padded to five characters. -/
def label : Level → String
  | off => "OFF  "
  | error => "ERROR"
  | warn => "WARN "
  | info => "INFO "
  | debug => "DEBUG"
  | trace => "TRACE"

/-- The level of a name, in either case. -/
def ofName? (name : String) : Option Level :=
  match name.toLower with
  | "off" => some off
  | "error" => some error
  | "warn" => some warn
  | "info" => some info
  | "debug" => some debug
  | "trace" => some trace
  | _ => none

end Level

/-- A step of tracing a file. -/
inductive Event where
  | read (size : Nat) (path : String)
  /-- The class has a name, and its methods come next. -/
  | started (name : ClassName) (major minor : UInt16)
  | decoded (instruction : Instruction)
  /-- A method has been traced, and `kept` of its instructions were kept. -/
  | traced (method : Method) (kept : Nat)
  | finished (trace : ClassTrace)

namespace Event

/-- How important the event is. -/
def level : Event → Level
  | decoded _ => .trace
  | finished _ => .info
  | _ => .debug

/-- The part of the program that the event comes from. -/
def target : Event → String
  | decoded _ => "class_tracer::bytecode"
  | finished _ => "class_trace"
  | _ => "class_tracer::trace"

/-- The wording of the event. -/
def message : Event → String
  | read size path => "read " ++ toString size ++ " bytes from " ++ Text.quote path
  | started name major minor =>
    "tracing " ++ name.internal ++ " (version " ++ toString major.toNat ++ "." ++
      toString minor.toNat ++ ")"
  | decoded instruction => "decoded " ++ instruction.text
  | traced method kept =>
    "traced " ++ method.name ++ method.signature ++ " with " ++ toString kept ++ " instructions"
  | finished trace =>
    "traced " ++ toString trace.methods.length ++ " methods of " ++ trace.className

/-- What is put behind every line break of a message, so that what follows is not taken for the next
entry of the log. -/
def indentation : List Char := [' ', ' ', ' ', ' ']

/-- A message with every line but its first indented. Names come out of the class file as they are,
and may break the line. -/
def indent (message : String) : String :=
  String.ofList (message.toList.flatMap fun c => if c = '\n' then '\n' :: indentation else [c])

/-- The entry of the log for the event. -/
def entry (e : Event) : String :=
  "[" ++ e.level.label ++ " " ++ e.target ++ "] " ++ indent e.message ++ "\n"

end Event

/-! ## The events of a trace -/

/-- The events of tracing a method, and whether it succeeded. -/
def Method.events (config : Config) (pool : Pool) (m : Method) : List Event × Bool :=
  match m.code pool with
  | .error _ => ([], false)
  | .ok none => ([.traced m 0], true)
  | .ok (some code) =>
    let decoding := decodeAll pool code.code
    let decoded := decoding.instructions.map Event.decoded
    match decoding.failure with
    | some _ => (decoded, false)
    | none => (decoded ++ [.traced m (config.select decoding.instructions).length], true)

/-- The events of tracing methods one after the other, up to the first that fails. -/
def methodEvents (config : Config) (pool : Pool) : List Method → List Event
  | [] => []
  | m :: rest =>
    match m.events config pool with
    | (events, true) => events ++ methodEvents config pool rest
    | (events, false) => events

/-- The events of tracing a class. -/
def ClassFile.events (config : Config) (f : ClassFile) : List Event :=
  match f.thisName with
  | .error _ => []
  | .ok name =>
    .started name f.major f.minor ::
      match f.methodViews with
      | .error _ => []
      | .ok methods => methodEvents config f.pool methods

/-- The events of tracing an image. -/
def imageEvents (config : Config) (image : Bytes) : List Event :=
  match ClassFile.parse image with
  | .error _ => []
  | .ok f => f.events config

/-! ## What is written out -/

/-- The levels set for the two parts of the program. -/
structure LogSettings where
  /-- For the library. -/
  library : Level
  /-- For the command. -/
  command : Level
  deriving DecidableEq

namespace LogSettings

/-- The settings without and with the request to be verbose. -/
def standard (verbose : Bool) : LogSettings :=
  if verbose then ⟨.debug, .debug⟩ else ⟨.warn, .warn⟩

/-- Changes the level of one part, given as its name, `=` and the name of a level. Anything else
changes nothing. -/
def override (s : LogSettings) (setting : String) : LogSettings :=
  match setting.splitOn "=" with
  | ["class_tracer", name] => { s with library := (Level.ofName? name).getD s.library }
  | ["class_trace", name] => { s with command := (Level.ofName? name).getD s.command }
  | _ => s

/-- The level that is set for an event. The name of the command begins the name of the library, so a
target of the library could be taken for one of the command; the longer name decides. -/
def levelFor (s : LogSettings) (e : Event) : Level :=
  if Filter.startsWith e.target "class_tracer" then s.library else s.command

/-- Whether an event is written out. -/
def shows (s : LogSettings) (e : Event) : Bool :=
  e.level.verbosity ≤ (s.levelFor e).verbosity

/-- The log of some events. -/
def log (s : LogSettings) (events : List Event) : String :=
  String.join ((events.filter s.shows).map Event.entry)

end LogSettings

end JvmTrace
