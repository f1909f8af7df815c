import JvmTrace.Trace.Config

/-!
# Command-line options

An argument is an option, the value of an option, or the input. The rules are those of every modern
command line, and they are applied from left to right:

- a long option is `--name`, and its value is either attached with `=` or the next argument;
- a short option is `-x`, flags can be bundled, and the value of the last one is attached, with or
  without `=`, or is the next argument;
- a value that is an argument of its own does not start with `-`, unless it is `-` alone;
- `--` ends the options, and what follows is input;
- nothing but `--suppress` may be given twice.

The first fault ends it, and so does a request for help or for the version, whichever comes first.
What concerns several arguments at once is looked at last.
-/

set_option autoImplicit false

namespace JvmTrace.Command

/-- What a run is asked to do. -/
structure Options where
  input : String
  /-- Where the document goes, if not to standard output. -/
  output : Option String
  config : Config
  verbose : Bool

/-- What is wrong with a command line. -/
inductive UsageError where
  | unknownOption (name : String)
  /-- The option needs a value, and none is there. -/
  | missingValue (name : String)
  /-- The option takes no value, and one is attached. -/
  | unexpectedValue (name : String)
  /-- The value is not one that the option or the input may have. -/
  | invalidValue (name value : String)
  | repeated (name : String)
  | unexpectedArgument (text : String)
  | missingInput
  /-- The two options exclude each other. -/
  | conflict (first second : String)
  deriving DecidableEq

/-- The wording of a usage error. -/
def UsageError.message : UsageError → String
  | unknownOption name => "unexpected argument '" ++ name ++ "' found"
  | missingValue name => "a value is required for '" ++ name ++ "' but none was supplied"
  | unexpectedValue name => "unexpected value for '" ++ name ++ "' found; no more were expected"
  | invalidValue name value => "invalid value '" ++ value ++ "' for '" ++ name ++ "'"
  | repeated name => "the argument '" ++ name ++ "' cannot be used multiple times"
  | unexpectedArgument text => "unexpected argument '" ++ text ++ "' found"
  | missingInput => "the following required arguments were not provided: <INPUT>"
  | conflict first second =>
    "the argument '" ++ first ++ "' cannot be used with '" ++ second ++ "'"

/-- Why a command line does not lead to a run. -/
inductive Stop where
  | usage (error : UsageError)
  | help
  | version
  deriving DecidableEq

/-! ## What has been given so far -/

/-- The arguments so far; what has not been given is absent, and gets its default only at the end. -/
structure Given where
  input : Option String := none
  output : Option String := none
  kind : Option String := none
  keepAll : Bool := false
  /-- The starts of mnemonics that are dropped, in the order in which they were given. -/
  suppress : List String := []
  /-- How many instructions of each method are looked at. -/
  limit : Option Nat := none
  verbose : Bool := false
  deriving DecidableEq

/-- An option that takes a value. -/
inductive ValueOption where
  | output
  | kind
  | suppress
  | limit
  deriving DecidableEq

/-- An option that takes none. -/
inductive FlagOption where
  | keepAll
  | verbose
  | help
  | version
  deriving DecidableEq

/-- An option of either sort. -/
inductive OptionName where
  | value (option : ValueOption)
  | flag (option : FlagOption)
  deriving DecidableEq

/-- The option of a long name. -/
def OptionName.ofLong? : String → Option OptionName
  | "output" => some (.value .output)
  | "kind" => some (.value .kind)
  | "suppress" => some (.value .suppress)
  | "limit" => some (.value .limit)
  | "keep-all" => some (.flag .keepAll)
  | "verbose" => some (.flag .verbose)
  | "help" => some (.flag .help)
  | "version" => some (.flag .version)
  | _ => none

/-- The option of a short name. -/
def OptionName.ofShort? : Char → Option OptionName
  | 'o' => some (.value .output)
  | 'v' => some (.flag .verbose)
  | 'h' => some (.flag .help)
  | 'V' => some (.flag .version)
  | _ => none

/-- The name of an option in messages. -/
def ValueOption.label : ValueOption → String
  | output => "--output <OUTPUT>"
  | kind => "--kind <KIND>"
  | suppress => "--suppress <PREFIX>"
  | limit => "--limit <N>"

/-- A whole number of at most 64 bits: an optional plus sign, and digits. -/
def parseCount (text : String) : Option Nat :=
  let digits :=
    match text.toList with
    | '+' :: rest => rest
    | cs => cs
  if digits.isEmpty || !digits.all Char.isDigit then none
  else
    let n := digits.foldl (fun n c => 10 * n + (c.toNat - '0'.toNat)) 0
    if n < UInt64.size then some n else none

/-- A step of reading a command line. -/
abbrev Parse (α : Type) := Except Stop α

/-- Refuses an option that has been given before. -/
def onlyOnce {α : Type} (name : String) : Option α → Parse Unit
  | none => .ok ()
  | some _ => .error (.usage (.repeated name))

namespace Given

/-- Takes the value of an option. The name of a file may not be empty. -/
def setValue (g : Given) (option : ValueOption) (value : String) : Parse Given :=
  match option with
  | .output => do
    if value.isEmpty then throw (.usage (.invalidValue option.label value))
    onlyOnce option.label g.output
    return { g with output := some value }
  | .kind => do
    onlyOnce option.label g.kind
    return { g with kind := some value }
  | .suppress => return { g with suppress := g.suppress ++ [value] }
  | .limit =>
    match parseCount value with
    | none => throw (.usage (.invalidValue option.label value))
    | some n => do
      onlyOnce option.label g.limit
      return { g with limit := some n }

/-- Takes a flag. -/
def setFlag (g : Given) : FlagOption → Parse Given
  | .keepAll =>
    if g.keepAll then throw (.usage (.repeated "--keep-all")) else return { g with keepAll := true }
  | .verbose =>
    if g.verbose then throw (.usage (.repeated "--verbose")) else return { g with verbose := true }
  | .help => throw .help
  | .version => throw .version

/-- Takes an input. -/
def setInput (g : Given) (value : String) : Parse Given :=
  match g.input with
  | some _ => throw (.usage (.unexpectedArgument value))
  | none =>
    if value.isEmpty then throw (.usage (.invalidValue "<INPUT>" value))
    else return { g with input := some value }

/-! ## One argument -/

/-- Takes a bundle of short options. The result says which option waits for its value. -/
def setShort (g : Given) : List Char → Parse (Given × Option ValueOption)
  | [] => return (g, none)
  | c :: rest =>
    match OptionName.ofShort? c with
    | none => throw (.usage (.unknownOption (String.ofList ['-', c])))
    | some (.flag flag) => do setShort (← g.setFlag flag) rest
    | some (.value option) =>
      match rest with
      | [] => return (g, some option)
      | '=' :: value => do return (← g.setValue option (String.ofList value), none)
      | value => do return (← g.setValue option (String.ofList value), none)

/-- Takes a long option, given without its dashes. The result says which option waits for its
value. -/
def setLong (g : Given) (body : List Char) : Parse (Given × Option ValueOption) :=
  let name := String.ofList (body.takeWhile (· ≠ '='))
  match OptionName.ofLong? name, body.dropWhile (· ≠ '=') with
  | none, _ => throw (.usage (.unknownOption ("--" ++ name)))
  | some (.flag flag), [] => do return (← g.setFlag flag, none)
  | some (.flag _), _ :: _ => throw (.usage (.unexpectedValue ("--" ++ name)))
  | some (.value option), [] => return (g, some option)
  | some (.value option), _ :: value => do
    return (← g.setValue option (String.ofList value), none)

/-- Takes an argument that is not the value of an option. The result says which option waits for its
value. -/
def setArgument (g : Given) (argument : String) : Parse (Given × Option ValueOption) :=
  match argument.toList with
  | '-' :: '-' :: body => g.setLong body
  | '-' :: c :: bundle => g.setShort (c :: bundle)
  | _ => do return (← g.setInput argument, none)

/-- Whether an argument can be the value of the option before it. -/
def isValue (argument : String) : Bool :=
  match argument.toList with
  | '-' :: _ :: _ => false
  | _ => true

/-! ## All arguments -/

/-- Takes all arguments. -/
def setAll (g : Given) : List String → Parse Given
  | [] => return g
  | "--" :: rest => rest.foldlM setInput g
  | argument :: rest => do
    match ← g.setArgument argument with
    | (g, none) => g.setAll rest
    | (g, some option) =>
      match rest with
      | [] => throw (.usage (.missingValue option.label))
      | value :: rest =>
        if isValue value then (← g.setValue option value).setAll rest
        else throw (.usage (.missingValue option.label))

/-- The filter that was asked for. -/
def filter (g : Given) : Filter :=
  if g.keepAll then .keepAll
  else if g.suppress.isEmpty then .standard
  else .suppress g.suppress

/-- Looks at the arguments together. -/
def finish (g : Given) : Parse Options :=
  if g.keepAll && !g.suppress.isEmpty then
    throw (.usage (.conflict "--keep-all" ValueOption.suppress.label))
  else
    match g.input with
    | none => throw (.usage .missingInput)
    | some input =>
      return {
        input
        output := g.output
        config := {
          kind := g.kind.getD ({} : Config).kind
          filter := g.filter
          limit := g.limit }
        verbose := g.verbose }

end Given

/-- The options of a command line. -/
def Options.parse (arguments : List String) : Parse Options := do
  (← ({} : Given).setAll arguments).finish

end JvmTrace.Command
