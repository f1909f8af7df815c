import JvmTrace.Builder.Script
import JvmTrace.Command.Run
import JvmTrace.Proofs.Command.Files
import JvmTrace.Proofs.Command.Steps
import Mathlib.Data.List.Forall2

/-!
# Runs — all or nothing

Three things stand in the way of a run: the input cannot be read, it cannot be traced, or the output
cannot be created (`Options.Blocked`). All steps before the output is created are quiet, creating it
is careful, and all steps after that are sure. In this order they are careful as a whole, which is
why a blocked run leaves every file as it was, and why the document of a run that is not blocked is
made from the bytes that were there at the start, even when it ends up in their place, under
whichever name.

What is said on standard error depends on the settings of the log, and nothing else does: two runs
that differ in these settings take the same steps.
-/

set_option autoImplicit false

namespace JvmTrace.Command

/-! ## What a run can leave behind -/

namespace Outcome

/-- The run fails, and nothing is left of it but what it says about that. -/
structure Failed (r : Outcome) (before : FileSystem) : Prop where
  exit : r.exit = 1
  stdout : r.stdout = ""
  files : r.files = before

/-- The document is printed, with a line break behind it. -/
structure Printed (r : Outcome) (before : FileSystem) (document : String) : Prop where
  exit : r.exit = 0
  stdout : r.stdout = document ++ "\n"
  files : r.files = before

/-- The document is all that the file holds that the path leads to, which is the file that it led to
before, if there was one; and everything else is spared. -/
structure Saved (r : Outcome) (before : FileSystem) (path document : String) : Prop where
  exit : r.exit = 0
  stdout : r.stdout = ""
  stored : ∃ id, r.files.LeadsTo path id ∧ (∀ j, before.LeadsTo path j → j = id) ∧
    r.files.contents? id = some (Text.Utf8.encode document.toList) ∧ before.Spares r.files id

/-- The document is where it was to go. -/
def Delivered (r : Outcome) (before : FileSystem) (document : String) : Option String → Prop
  | none => r.Printed before document
  | some path => r.Saved before path document

/-- The runs differ in nothing but what they say on standard error. -/
structure SameEffect (r r' : Outcome) : Prop where
  exit : r.exit = r'.exit
  stdout : r.stdout = r'.stdout
  files : r.files = r'.files

end Outcome

/-! ## The steps of a run -/

namespace Options

variable {o o' : Options} {files : FileSystem} {w : World}

/-- The input cannot be read, it cannot be traced, or the output cannot be created. -/
inductive Blocked (o : Options) (files : FileSystem) : Prop where
  | unread {e : Error} : files.read o.input = .error e → Blocked o files
  | untraced {image : Bytes} {e : Error} : files.read o.input = .ok image →
    traceImage o.config image = .error e → Blocked o files
  | uncreatable {path : String} {e : Error} : o.output = some path →
    files.create path = .error e → Blocked o files

theorem quiet_produce (o : Options) (setting : Option String) :
    Action.Quiet (o.produce World.host setting) := by
  refine (Action.quiet_read _).bind fun image => (Action.quiet_say _).bind fun _ => ?_
  exact (Action.quiet_lift _).bind fun t => (Action.quiet_say _).bind fun _ => Action.quiet_lift (.ok t)

theorem careful_deliver (o : Options) (document : String) :
    Action.Careful (o.deliver World.host document) := by
  unfold deliver
  cases o.output with
  | some path => exact (Action.careful_create path).before_sure fun file => Action.sure_write file _
  | none => exact ((Action.sure_print _).bind fun _ => Action.sure_print _).careful

/-- **A run that fails leaves nothing behind**, since what destroys anything comes last but for what does
not fail. -/
theorem careful_perform (o : Options) (setting : Option String) :
    Action.Careful (o.perform World.host setting) :=
  .after_quiet (o.quiet_produce setting) fun t => o.careful_deliver t.json

/-- What is traced is what the input holds. -/
theorem step_produce (o : Options) (setting : Option String) (w : World) :
    (w.step (o.produce World.host setting)).1 = w.files.read o.input >>= traceImage o.config := by
  unfold produce
  rw [World.step_bind, World.step_read]
  cases w.files.read o.input with
  | error e => rfl
  | ok image =>
    dsimp only
    rw [World.step_bind, World.step_say]
    dsimp only
    rw [World.step_bind, World.step_lift]
    change _ = traceImage o.config image
    cases traceImage o.config image with
    | error e => rfl
    | ok t => rfl

/-- The trace is delivered into a world where nothing has happened yet. -/
theorem step_perform (o : Options) (setting : Option String) (w : World) :
    ∃ after : World, after.Alike w ∧ w.step (o.perform World.host setting) =
    match w.files.read o.input >>= traceImage o.config with
    | .ok t => after.step (o.deliver World.host t.json)
    | .error e => (.error e, after) := by
  refine ⟨(w.step (o.produce World.host setting)).2, o.quiet_produce setting w, ?_⟩
  unfold perform
  rw [World.step_bind, ← o.step_produce setting w]
  obtain ⟨result, after⟩ := w.step (o.produce World.host setting)
  cases result with
  | ok t => rfl
  | error e => rfl

/-- A run that is blocked fails. -/
theorem fails_of_blocked (setting : Option String) (h : o.Blocked w.files) :
    ∃ e, (w.step (o.perform World.host setting)).1 = .error e := by
  obtain ⟨after, halike, hperform⟩ := o.step_perform setting w
  rw [hperform]
  cases hproduced : w.files.read o.input >>= traceImage o.config with
  | error e => exact ⟨e, rfl⟩
  | ok t =>
    obtain ⟨image, hread, htrace⟩ := Except.bind_eq_ok.mp hproduced
    cases h with
    | unread herror => cases hread.symm.trans herror
    | untraced hread' herror =>
      cases hread.symm.trans hread'
      cases htrace.symm.trans herror
    | uncreatable hpath herror =>
      rw [← halike.files] at herror
      unfold deliver
      rw [hpath]
      dsimp only
      rw [World.step_bind, World.step_create, herror]
      exact ⟨_, rfl⟩

/-- A run that is not blocked has a trace, and nothing keeps it from being delivered. -/
theorem exists_of_not_blocked (h : ¬ o.Blocked files) :
    ∃ image t, files.read o.input = .ok image ∧ traceImage o.config image = .ok t ∧
      ∀ path, o.output = some path → ∃ id after, files.create path = .ok (id, after) := by
  cases hread : files.read o.input with
  | error e => exact absurd (.unread hread) h
  | ok image =>
    cases htrace : traceImage o.config image with
    | error e => exact absurd (.untraced hread htrace) h
    | ok t =>
      refine ⟨image, t, rfl, htrace, fun path hpath => ?_⟩
      cases hcreate : files.create path with
      | error e => exact absurd (.uncreatable hpath hcreate) h
      | ok created => exact ⟨created.1, created.2, rfl⟩

/-- The options ask for the same, but perhaps not for the same log. -/
structure Like (o o' : Options) : Prop where
  input : o.input = o'.input
  output : o.output = o'.output
  config : o.config = o'.config

/-- **The settings of the log have no part in what is done.** -/
theorem Like.same (h : o.Like o') (setting setting' : Option String) :
    Action.Same (o.perform World.host setting) (o'.perform World.host setting') := by
  refine Action.Same.bind ?_ fun t => ?_
  · unfold produce
    rw [h.input, h.config]
    refine (Action.same_read _).bind fun image => (Action.same_say _ _).bind fun _ => ?_
    exact (Action.same_lift _).bind fun t => (Action.same_say _ _).bind fun _ =>
      Action.same_lift (.ok t)
  · unfold deliver
    rw [h.output]
    cases o'.output with
    | some path => exact (Action.same_create path).bind fun file => Action.same_write file _
    | none => exact (Action.same_print _).bind fun _ => Action.same_print _

end Options

/-! ## What was asked for -/

/-- The filter of a command line: everything is kept, or the instructions with one of the given starts
are dropped, or, when none is given, the loads of the first local variables. -/
inductive Given.AsksFilter (g : Given) : Filter → Prop where
  | keepAll : g.keepAll = true → g.suppress = [] → AsksFilter g .keepAll
  | suppress : g.keepAll = false → g.suppress ≠ [] → AsksFilter g (.suppress g.suppress)
  | standard : g.keepAll = false → g.suppress = [] → AsksFilter g (.suppress ["iload_", "aload_"])

/-- The options are what was given, with defaults for what was not. -/
structure Given.Asks (g : Given) (o : Options) : Prop where
  input : g.input = some o.input
  output : g.output = o.output
  kind : o.config.kind = g.kind.getD "Controller"
  filter : g.AsksFilter o.config.filter
  limit : o.config.limit = g.limit
  verbose : o.verbose = g.verbose

theorem Given.asksFilter_filter {g : Given} (h : (g.keepAll && !g.suppress.isEmpty) = false) :
    g.AsksFilter g.filter := by
  unfold Given.filter
  split
  · next hkeep =>
    refine .keepAll hkeep ?_
    simpa [hkeep] using h
  · next hdrop =>
    have hdrop : g.keepAll = false := by simpa using hdrop
    split
    · next hnone => exact .standard hdrop (List.isEmpty_iff.mp hnone)
    · next hsome =>
      refine .suppress hdrop ?_
      simpa using hsome

theorem Given.asks_of_finish {g : Given} {o : Options} (h : g.finish = .ok o) : g.Asks o := by
  unfold finish at h
  split at h
  · cases h
  · next hconflict =>
    cases hinput : g.input with
    | none =>
      rw [hinput] at h
      cases h
    | some input =>
      rw [hinput] at h
      cases h
      exact ⟨hinput, rfl, rfl, asksFilter_filter (by simpa using hconflict), rfl, rfl⟩

/-! ## Runs of the command -/

section

variable {arguments arguments' : List String} {o o' : Options} {files : FileSystem}
  {setting setting' : Option String}

theorem run_conclude (x : Action Unit) (w : World) : (conclude World.host x).run w =
    match w.step x with
    | (.ok _, after) => (0, after)
    | (.error e, after) => (1, { after with stderr := after.stderr ++ failureText e }) := by
  have hstep : x.run.run w = w.step x := rfl
  unfold conclude
  rw [StateT.run_bind, hstep]
  obtain ⟨result, after⟩ := w.step x
  cases result with
  | ok a => rfl
  | error e => rfl

/-- A run takes all steps, and says how they ended. -/
theorem run_of_parse (h : Options.parse arguments = .ok o) : run arguments setting files =
    match ({ files } : World).step (o.perform World.host setting) with
    | (.ok _, after) => { after with exit := 0 }
    | (.error e, after) => { after with stderr := after.stderr ++ failureText e, exit := 1 } := by
  unfold run command
  rw [h]
  dsimp only
  rw [run_conclude]
  obtain ⟨result, after⟩ := ({ files } : World).step (o.perform World.host setting)
  cases result with
  | ok a => rfl
  | error e => rfl

theorem run_of_blocked (h : Options.parse arguments = .ok o) (hblocked : o.Blocked files) :
    (run arguments setting files).Failed files := by
  have hfails := Options.fails_of_blocked (w := { files }) setting hblocked
  have hcareful := o.careful_perform setting { files }
  rw [run_of_parse h]
  obtain ⟨e, he⟩ := hfails
  have halike := hcareful e he
  revert he halike
  obtain ⟨result, after⟩ := ({ files } : World).step (o.perform World.host setting)
  rintro rfl halike
  exact ⟨rfl, halike.stdout, halike.files⟩

theorem run_of_traced {image : Bytes} {t : ClassTrace} (h : Options.parse arguments = .ok o)
    (hread : files.read o.input = .ok image) (htrace : traceImage o.config image = .ok t)
    (hcreate : ∀ path, o.output = some path → ∃ id after, files.create path = .ok (id, after)) :
    (run arguments setting files).Delivered files t.json o.output := by
  have hproduced : files.read o.input >>= traceImage o.config = .ok t := by
    rw [hread]
    exact htrace
  obtain ⟨after, halike, hperform⟩ := o.step_perform setting { files }
  rw [run_of_parse h, hperform]
  dsimp only
  rw [hproduced]
  dsimp only
  unfold Options.deliver
  cases houtput : o.output with
  | none =>
    dsimp only
    rw [World.step_bind, World.step_print]
    dsimp only
    rw [World.step_print]
    refine ⟨rfl, ?_, halike.files⟩
    dsimp only
    rw [halike.stdout, String.empty_append]
  | some path =>
    obtain ⟨id, created, hcreate⟩ := hcreate path houtput
    have hbefore : after.files.create path = .ok (id, created) := by
      rw [halike.files]
      exact hcreate
    dsimp only
    rw [World.step_bind, World.step_create, hbefore]
    dsimp only
    rw [World.step_write]
    obtain ⟨hfile, hleads, hspares⟩ := FileSystem.append_of_create hcreate
      (Text.Utf8.encode t.json.toList)
    refine ⟨rfl, halike.stdout, id, hleads, fun j hj => ?_, hfile, hspares⟩
    exact (hspares.kept path j hj).unique hleads

theorem Options.Like.run (hlike : o.Like o') (h : Options.parse arguments = .ok o)
    (h' : Options.parse arguments' = .ok o') :
    (run arguments setting files).SameEffect (run arguments' setting' files) := by
  rw [run_of_parse h, run_of_parse h']
  have hsame := hlike.same setting setting' { files } { files } (.refl _)
  obtain ⟨hresult, halike⟩ := hsame
  revert hresult halike
  obtain ⟨result, after⟩ := ({ files } : World).step (o.perform World.host setting)
  obtain ⟨result', after'⟩ := ({ files } : World).step (o'.perform World.host setting')
  rintro rfl halike
  cases result with
  | ok a => exact ⟨rfl, halike.stdout, halike.files⟩
  | error e => exact ⟨rfl, halike.stdout, halike.files⟩

end

/-- **A run does all that it was asked for, or nothing.** -/
theorem run_all_or_nothing {arguments : List String} {o : Options}
    (h : Options.parse arguments = .ok o) :
    (∃ g : Given, Given.setAll {} arguments = .ok g ∧ g.Asks o) ∧
    ∀ (setting : Option String) (files : FileSystem),
      (o.Blocked files → (run arguments setting files).Failed files) ∧
      (¬ o.Blocked files → ∃ image t, files.read o.input = .ok image ∧
        (∃ id, files.LeadsTo o.input id ∧ files.contents? id = some image) ∧
        traceImage o.config image = .ok t ∧
        (run arguments setting files).Delivered files t.json o.output) ∧
      ∀ (arguments' : List String) (o' : Options) (setting' : Option String),
        Options.parse arguments' = .ok o' → o'.Like o →
          (run arguments' setting' files).SameEffect (run arguments setting files) := by
  constructor
  · obtain ⟨g, hg, hfinish⟩ := Except.bind_eq_ok.mp h
    exact ⟨g, hg, Given.asks_of_finish hfinish⟩
  · intro setting files
    refine ⟨run_of_blocked h, fun hfree => ?_, fun arguments' o' setting' h' hlike => hlike.run h' h⟩
    obtain ⟨image, t, hread, htrace, hcreate⟩ := Options.exists_of_not_blocked hfree
    exact ⟨image, t, hread, FileSystem.exists_leadsTo_of_read hread, htrace,
      run_of_traced h hread htrace hcreate⟩

/-! A run that writes over its own input, which it reads by its name and writes by a link: where the
input is whole, and where it is cut short. -/

def inPlace : List String := ["A.class", "--limit=2", "-o", "../work/latest"]

def inPlaceOptions : Options where
  input := "A.class"
  output := some "../work/latest"
  config := { limit := some 2 }
  verbose := false

/-- A directory below the root with a file, a link to it and another file. -/
def linkedFiles (image : Bytes) : FileSystem where
  nodes := [
    { content := .directory 0 [("work", 1)] },
    { content := .directory 0 [("A.class", 2), ("latest", 3), ("B.class", 4)] },
    { content := .file image },
    { content := .link { absolute := false, steps := [.down "A.class"] } },
    { content := .file [7] }]
  root := 0
  working := 1
  closed := by simp [Node.references]

def wholeFiles : FileSystem :=
  linkedFiles ((Builder.new "a/B").runScript [.method "run" "()V" (some [0xB1])]).2.build

def cutFiles : FileSystem := linkedFiles [0xCA, 0xFE, 0xBA, 0xBE]

theorem run_all_or_nothing_in_place :
    Options.parse inPlace = .ok inPlaceOptions ∧
    (inPlaceOptions.Blocked cutFiles ∧ (run inPlace none cutFiles).Failed cutFiles) ∧
    (¬ inPlaceOptions.Blocked wholeFiles ∧ ∃ image t,
      wholeFiles.read "A.class" = .ok image ∧ traceImage { limit := some 2 } image = .ok t ∧
      (run inPlace none wholeFiles).Saved wholeFiles "../work/latest" t.json) ∧
    (run inPlace none wholeFiles).files.read "A.class" ≠ wholeFiles.read "A.class" ∧
    (run ("-v" :: inPlace) (some "trace") wholeFiles).SameEffect (run inPlace none wholeFiles) := by
  have hgiven : Given.setAll {} inPlace =
      .ok { input := some "A.class", output := some "../work/latest", limit := some 2 } := by
    decide +kernel
  have hgiven' : Given.setAll {} ("-v" :: inPlace) =
      .ok { input := some "A.class", output := some "../work/latest", limit := some 2,
            verbose := true } := by
    decide +kernel
  have hparse : Options.parse inPlace = .ok inPlaceOptions := by
    rw [Options.parse, hgiven]
    rfl
  have hparse' : Options.parse ("-v" :: inPlace) = .ok { inPlaceOptions with verbose := true } := by
    rw [Options.parse, hgiven']
    rfl
  have hread : cutFiles.read inPlaceOptions.input = .ok [0xCA, 0xFE, 0xBA, 0xBE] := by
    decide +kernel
  have htrace : traceImage inPlaceOptions.config [0xCA, 0xFE, 0xBA, 0xBE] =
      .error (.endOfInput 4 2) := by decide +kernel
  have hcut : inPlaceOptions.Blocked cutFiles := .untraced hread htrace
  have hwhole : ¬ inPlaceOptions.Blocked wholeFiles := by
    intro hblocked
    have hexit : (run inPlace none wholeFiles).exit = 0 := by decide +kernel
    exact absurd ((run_of_blocked hparse hblocked).exit.symm.trans hexit) (by decide)
  obtain ⟨-, hruns⟩ := run_all_or_nothing hparse
  obtain ⟨-, hdelivered, hsame⟩ := hruns none wholeFiles
  obtain ⟨image, t, himage, -, ht, hsaved⟩ := hdelivered hwhole
  exact ⟨hparse, ⟨hcut, (hruns none cutFiles).1 hcut⟩, ⟨hwhole, image, t, himage, ht, hsaved⟩,
    by decide +kernel, hsame _ _ (some "trace") hparse' ⟨rfl, rfl, rfl⟩⟩

end JvmTrace.Command
