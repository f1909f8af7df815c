import JvmTrace.Proofs.Builder.Constants

/-!
# A script builds the class that it describes

What a script says about a class can be said without indices, constants or bytes: that is its
`Outline`, which each step changes in the obvious way (`Outline.after`). A builder does the same with
indices. The two are kept in step by `Reflects`: in every pool that has the constants of the builder,
its tables with all indices followed are the outline (`Outline.Describes`).

`Reflects.perform` is the one step and `Reflects.runScript` the whole script. A step that asks for
constants and then changes the tables is split there into the two: `Reflects.of_gives` deals with the
constants once for all of them, and what is left for each step is a fact about a class file, with no
builder in it.

The last theorem looks at the image. The limits of the format are not needed before that, but for the
length of texts and the bodies of attributes, which a step by itself can exceed.
-/

set_option autoImplicit false

namespace JvmTrace

/-! ## Class files, with their indices followed -/

/-- Whether a member that can be written is the given one, once its indices are followed. -/
structure Member.Is (m : Member) (pool : Pool) (name descriptor : String) (access : UInt16)
    (attributes : List Attribute) : Prop where
  name : pool.utf8 m.name = .ok name
  descriptor : pool.utf8 m.descriptor = .ok descriptor
  access : m.access = access
  attributes : m.attributes.mapM (·.resolve pool) = .ok attributes
  fits : m.Fits

/-- Whether an attribute that can be written is the given one, once its name is followed. -/
structure RawAttribute.Is (a : RawAttribute) (pool : Pool) (name : String) (body : Bytes) :
    Prop where
  name : pool.utf8 a.name = .ok name
  body : a.body = body
  fits : a.Fits

theorem RawAttribute.resolve_code {pool : Pool} {a : RawAttribute} {code : Code}
    (hname : pool.utf8 a.name = .ok codeAttribute) (hcode : Code.parse a.body = .ok code) :
    a.resolve pool = .ok ⟨codeAttribute, .code code⟩ := by
  refine Except.bind_eq_ok.mpr ⟨_, hname, ?_⟩
  rw [if_pos rfl]
  exact Except.bind_eq_ok.mpr ⟨_, hcode, rfl⟩

theorem RawAttribute.resolve_other {pool : Pool} {a : RawAttribute} {name : String}
    (hname : pool.utf8 a.name = .ok name) (hother : name ≠ codeAttribute) :
    a.resolve pool = .ok ⟨name, .other a.body⟩ :=
  Except.bind_eq_ok.mpr ⟨_, hname, if_neg hother⟩

/-- Zero leads nowhere, so an index that leads to a class can be told from it. -/
theorem ClassFile.superName_eq {f : ClassFile} {name : String}
    (h : f.pool.className f.super = .ok name) : f.superName = .ok (some ⟨name⟩) := by
  have hzero : f.super ≠ 0 := by
    intro hzero
    rw [hzero] at h
    cases h
  rw [superName, if_neg hzero, h]
  rfl

namespace Builder

/-! ## Outlines -/

structure Declaration where
  name : String
  descriptor : String
  code : Option Bytes

/-- What a script says about a class. -/
structure Outline where
  /-- The major version and the minor one. -/
  version : UInt16 × UInt16
  this : String
  super : Option String
  interfaces : List String
  /-- The name and the descriptor of each field. -/
  fields : List (String × String)
  methods : List Declaration
  /-- The name and the body of each attribute of the class. -/
  attributes : List (String × Bytes)

/-- The outline of a class before the first step. -/
def Outline.start (this : String) : Outline where
  version := (52, 0)
  this := this
  super := some "java/lang/Object"
  interfaces := []
  fields := []
  methods := []
  attributes := []

/-- What a step changes. Asking for a constant changes nothing. -/
def Outline.after (o : Outline) : Step → Outline
  | .version major minor => { o with version := (major, minor) }
  | .superClass name => { o with super := some name }
  | .noSuperClass => { o with super := none }
  | .interface name => { o with interfaces := o.interfaces ++ [name] }
  | .field name descriptor => { o with fields := o.fields ++ [(name, descriptor)] }
  | .method name descriptor code => { o with methods := o.methods ++ [⟨name, descriptor, code⟩] }
  | .addAttribute name body => { o with attributes := o.attributes ++ [(name, body)] }
  | .utf8 _ | .integer _ | .long _ | .double _ | .classRef _ | .string _ | .nameAndType _ _
  | .memberRef _ _ _ _ | .methodAt _ _ | .raw _ => o

def outline (this : String) (script : List Step) : Outline :=
  script.foldl Outline.after (.start this)

/-- Whether a class file is the class of an outline. Fields are private and deprecated. Methods are
public, and abstract without a body; a body has room for sixteen values and handles no exceptions. -/
structure Outline.Describes (o : Outline) (f : ClassFile) : Prop where
  version : (f.major, f.minor) = o.version
  access : f.access = 0x0021
  this : f.thisName = .ok ⟨o.this⟩
  super : f.superName = .ok (o.super.map ClassName.mk)
  interfaces : f.interfaceNames = .ok (o.interfaces.map ClassName.mk)
  fields : List.Forall₂ (fun m field =>
    m.Is f.pool field.1 field.2 0x0002 [⟨"Deprecated", .other []⟩]) f.fields o.fields
  methods : List.Forall₂ (fun m method =>
    m.Is f.pool method.name method.descriptor (if method.code.isSome then 0x0001 else 0x0401)
      (method.code.toList.map fun code => ⟨"Code", .code ⟨16, 16, code, 0⟩⟩)) f.methods o.methods
  attributes : List.Forall₂ (fun a named => a.Is f.pool named.1 named.2) f.attributes o.attributes

/-! ## One step -/

/-- Whether the texts and the bodies of a step fit their length fields, and its bytes, if it asks for a
constant by bytes, are those of a constant that takes up one slot. -/
def Step.Fits : Step → Prop
  | .utf8 text => Text.Short text
  | .classRef name => Text.Short name
  | .string text => Text.Short text
  | .nameAndType name descriptor => Text.Short name ∧ Text.Short descriptor
  | .memberRef _ owner name descriptor =>
    Text.Short owner ∧ Text.Short name ∧ Text.Short descriptor
  | .raw bytes => ∃ c : Constant, c.WrittenAs bytes ∧ c.isWide = false
  | .superClass name => Text.Short name
  | .interface name => Text.Short name
  | .field name descriptor => Text.Short name ∧ Text.Short descriptor
  | .method name descriptor code => Text.Short name ∧ Text.Short descriptor ∧
    ∀ bytes ∈ code, (Code.encodePlain room room bytes).length < UInt32.size
  | .addAttribute name body => Text.Short name ∧ body.length < UInt32.size
  | .integer _ | .long _ | .double _ | .methodAt _ _ | .version _ _ | .noSuperClass => True

/-- A sound builder stands for the class of an outline, in every pool that has its constants. -/
structure Reflects (b : Builder) (o : Outline) : Prop where
  sound : b.Sound
  describes : ∀ pool : Pool, pool.Has b.constants.toList → o.Describes (b.classFile pool)

variable {b : Builder} {o o' : Outline}

theorem Reflects.of_adds {b' : Builder} (h : b.Reflects o) (hadds : Adds b b') : b'.Reflects o := by
  refine ⟨hadds.sound, fun pool hpool => ?_⟩
  rw [hadds.classFile]
  exact h.describes pool (hpool.of_isPrefix hadds.kept)

/-- Asking for a constant and then changing the tables gives a builder that stands for the class of an
outline, if the change makes the class file into that. -/
theorem reflects_of_gives {α : Type} {ask : BuilderM α} {Answer : α → Pool → Prop}
    {change : α → ClassTables → ClassTables} (hb : b.Sound) (hask : Gives ask Answer)
    (hchange : ∀ (a : α) (pool : Pool), Answer a pool → pool.Has b.constants.toList →
      o.Describes { b.classFile pool with
        toClassTables := change a (b.classFile pool).toClassTables }) :
    ((ask >>= fun a => modifyTables (change a)).run b).2.Reflects o := by
  obtain ⟨⟨hsound, hkept, hclassFile⟩, hanswer⟩ := hask b hb
  refine ⟨hsound.of_constants rfl rfl, fun pool hpool => ?_⟩
  have hchanged := hchange _ pool (hanswer pool hpool) (hpool.of_isPrefix hkept)
  rw [← hclassFile] at hchanged
  exact hchanged

theorem Reflects.of_gives {α : Type} {ask : BuilderM α} {Answer : α → Pool → Prop}
    {change : α → ClassTables → ClassTables} (h : b.Reflects o) (hask : Gives ask Answer)
    (hchange : ∀ (a : α) (f : ClassFile), Answer a f.pool → o.Describes f →
      o'.Describes { f with toClassTables := change a f.toClassTables }) :
    ((ask >>= fun a => modifyTables (change a)).run b).2.Reflects o' :=
  reflects_of_gives h.sound hask fun a pool ha hpool =>
    hchange a (b.classFile pool) ha (h.describes pool hpool)

theorem Reflects.superClass (h : b.Reflects o) {name : String} (hname : Text.Short name) :
    ((superClass name).run b).2.Reflects { o with super := some name } := by
  refine h.of_gives (gives_classRef hname) fun index f hindex hf => ?_
  exact { hf with super := ClassFile.superName_eq hindex }

theorem Reflects.interface (h : b.Reflects o) {name : String} (hname : Text.Short name) :
    ((interface name).run b).2.Reflects { o with interfaces := o.interfaces ++ [name] } := by
  refine h.of_gives (gives_classRef hname) fun index f hindex hf => ?_
  refine { hf with interfaces := ?_ }
  have hlast : (do return ⟨← f.pool.className index⟩ : Except Error ClassName) = .ok ⟨name⟩ :=
    Except.bind_eq_ok.mpr ⟨_, hindex, rfl⟩
  rw [ClassFile.interfaceNames, Except.mapM_eq_ok_iff, List.map_append]
  exact List.rel_append (Except.mapM_eq_ok_iff.mp hf.interfaces) (.cons hlast .nil)

-- A step that adds a member is cut in two: what asks for the constants, and what adds the member.
def fieldMember (name descriptor : String) : BuilderM Member := do
  let name ← utf8 name
  let descriptor ← utf8 descriptor
  let deprecated ← utf8 "Deprecated"
  return ⟨0x0002, name, descriptor, [⟨deprecated, []⟩]⟩

def methodMember (name descriptor : String) (code : Option Bytes) : BuilderM Member := do
  let name ← utf8 name
  let descriptor ← utf8 descriptor
  let attributes ← codeAttributes code
  return ⟨if code.isSome then 0x0001 else 0x0401, name, descriptor, attributes⟩

theorem field_eq (name descriptor : String) :
    field name descriptor = fieldMember name descriptor >>= fun m =>
      modifyTables fun t => { t with fields := t.fields ++ [m] } := rfl

theorem method_eq (name descriptor : String) (code : Option Bytes) :
    method name descriptor code = methodMember name descriptor code >>= fun m =>
      modifyTables fun t => { t with methods := t.methods ++ [m] } := rfl

theorem gives_fieldMember {name descriptor : String} (hname : Text.Short name)
    (hdescriptor : Text.Short descriptor) :
    Gives (fieldMember name descriptor) fun m pool =>
      m.Is pool name descriptor 0x0002 [⟨"Deprecated", .other []⟩] := by
  have hdeprecated : Text.Short "Deprecated" := by decide
  refine ((gives_utf8 hname).bind fun _ => (gives_utf8 hdescriptor).bind fun _ =>
    (gives_utf8 hdeprecated).bind fun _ => gives_pure _).imp ?_
  rintro m pool ⟨i, hi, j, hj, k, hk, rfl⟩
  have hresolve : (⟨k, []⟩ : RawAttribute).resolve pool = .ok ⟨"Deprecated", .other []⟩ :=
    RawAttribute.resolve_other hk (by decide)
  refine ⟨hi, hj, rfl, Except.mapM_eq_ok_iff.mpr (.cons hresolve .nil), ?_⟩
  exact ⟨(by decide : 1 < UInt16.size),
    List.forall_mem_singleton.mpr (by decide : 0 < UInt32.size)⟩

theorem gives_codeAttributes {code : Option Bytes}
    (hcode : ∀ bytes ∈ code, (Code.encodePlain room room bytes).length < UInt32.size) :
    Gives (codeAttributes code) fun attributes pool =>
      attributes.mapM (·.resolve pool) =
        .ok (code.toList.map fun bytes => ⟨"Code", .code ⟨16, 16, bytes, 0⟩⟩) ∧
      attributes.length < UInt16.size ∧ ∀ a ∈ attributes, a.Fits := by
  cases code with
  | none =>
    refine (gives_pure []).imp ?_
    rintro _ pool rfl
    exact ⟨rfl, (by decide : 0 < UInt16.size), List.forall_mem_nil _⟩
  | some bytes =>
    have hbody := hcode bytes rfl
    have hbytes : bytes.length < UInt32.size := by
      simp only [Code.encodePlain, List.length_append] at hbody
      omega
    have hname : Text.Short codeAttribute := by decide
    refine ((gives_utf8 hname).bind fun index =>
      gives_pure [RawAttribute.mk index (Code.encodePlain room room bytes)]).imp ?_
    rintro _ pool ⟨index, hindex, rfl⟩
    have hresolve := RawAttribute.resolve_code (a := ⟨index, Code.encodePlain room room bytes⟩)
      hindex (Code.parse_encodePlain hbytes room room)
    exact ⟨Except.mapM_eq_ok_iff.mpr (.cons hresolve .nil), (by decide : 1 < UInt16.size),
      List.forall_mem_singleton.mpr hbody⟩

theorem gives_methodMember {name descriptor : String} {code : Option Bytes}
    (hname : Text.Short name) (hdescriptor : Text.Short descriptor)
    (hcode : ∀ bytes ∈ code, (Code.encodePlain room room bytes).length < UInt32.size) :
    Gives (methodMember name descriptor code) fun m pool =>
      m.Is pool name descriptor (if code.isSome then 0x0001 else 0x0401)
        (code.toList.map fun bytes => ⟨"Code", .code ⟨16, 16, bytes, 0⟩⟩) := by
  refine ((gives_utf8 hname).bind fun _ => (gives_utf8 hdescriptor).bind fun _ =>
    (gives_codeAttributes hcode).bind fun _ => gives_pure _).imp ?_
  rintro m pool ⟨i, hi, j, hj, attributes, ⟨hattributes, hfits⟩, rfl⟩
  exact ⟨hi, hj, rfl, hattributes, hfits⟩

theorem Reflects.field (h : b.Reflects o) {name descriptor : String} (hname : Text.Short name)
    (hdescriptor : Text.Short descriptor) :
    ((field name descriptor).run b).2.Reflects
      { o with fields := o.fields ++ [(name, descriptor)] } := by
  rw [field_eq]
  refine h.of_gives (gives_fieldMember hname hdescriptor) fun m f hm hf => ?_
  exact { hf with fields := List.rel_append hf.fields (.cons hm .nil) }

theorem Reflects.method (h : b.Reflects o) {name descriptor : String} {code : Option Bytes}
    (hname : Text.Short name) (hdescriptor : Text.Short descriptor)
    (hcode : ∀ bytes ∈ code, (Code.encodePlain room room bytes).length < UInt32.size) :
    ((method name descriptor code).run b).2.Reflects
      { o with methods := o.methods ++ [⟨name, descriptor, code⟩] } := by
  rw [method_eq]
  refine h.of_gives (gives_methodMember hname hdescriptor hcode) fun m f hm hf => ?_
  exact { hf with methods := List.rel_append hf.methods (.cons hm .nil) }

theorem Reflects.addAttribute (h : b.Reflects o) {name : String} {body : Bytes}
    (hname : Text.Short name) (hbody : body.length < UInt32.size) :
    ((addAttribute name body).run b).2.Reflects
      { o with attributes := o.attributes ++ [(name, body)] } := by
  refine h.of_gives (gives_utf8 hname) fun index f hindex hf => ?_
  exact { hf with
    attributes := List.rel_append hf.attributes (.cons ⟨hindex, rfl, hbody⟩ .nil) }

theorem Reflects.version (h : b.Reflects o) (major minor : UInt16) :
    ((version major minor).run b).2.Reflects { o with version := (major, minor) } := by
  obtain ⟨hsound, hdescribes⟩ := h
  exact ⟨hsound.of_constants rfl rfl, fun pool hpool =>
    { hdescribes pool hpool with version := rfl }⟩

theorem Reflects.noSuperClass (h : b.Reflects o) :
    (noSuperClass.run b).2.Reflects { o with super := none } := by
  obtain ⟨hsound, hdescribes⟩ := h
  exact ⟨hsound.of_constants rfl rfl, fun pool hpool =>
    { hdescribes pool hpool with super := rfl }⟩

/-- A step that only asks for a constant leaves the outline as it is. -/
theorem Reflects.indexed {ask : BuilderM UInt16} {Answer : UInt16 → Pool → Prop}
    (h : b.Reflects o) (hask : Gives ask Answer) : ((indexed ask).run b).2.Reflects o :=
  h.of_adds (hask b h.sound).1

theorem Reflects.quiet {step : BuilderM Unit} (h : (step.run b).2.Reflects o) :
    ((quiet step).run b).2.Reflects o := h

/-- **One step of a builder is one step of the outline.** -/
theorem Reflects.perform (h : b.Reflects o) {step : Step} (hstep : step.Fits) :
    (step.perform.run b).2.Reflects (o.after step) := by
  cases step with
  | utf8 text => exact h.indexed (gives_utf8 hstep)
  | integer value => exact h.indexed (gives_constant (c := .integer value) trivial (by simp))
  | long value => exact h.indexed (gives_constant (c := .long value) trivial (by simp))
  | double bits =>
    have hmeant : (BuilderConstant.constant (.double bits)).Means (.double bits) := ⟨trivial, rfl⟩
    exact h.indexed (gives_share ⟨_, hmeant⟩)
  | classRef name => exact h.indexed (gives_classRef hstep)
  | string text => exact h.indexed (gives_string hstep)
  | nameAndType name descriptor => exact h.indexed (gives_nameAndType hstep.1 hstep.2)
  | memberRef kind owner name descriptor =>
    exact h.indexed (gives_memberRef hstep.1 hstep.2.1 hstep.2.2)
  | methodAt owner signature =>
    exact h.indexed (gives_constant (c := .member .method owner signature) trivial (by simp))
  | raw bytes => exact h.indexed (gives_share hstep)
  | version major minor => exact (h.version major minor).quiet
  | superClass name => exact (h.superClass hstep).quiet
  | noSuperClass => exact h.noSuperClass.quiet
  | interface name => exact (h.interface hstep).quiet
  | field name descriptor => exact (h.field hstep.1 hstep.2).quiet
  | method name descriptor code => exact (h.method hstep.1 hstep.2.1 hstep.2.2).quiet
  | addAttribute name body => exact (h.addAttribute hstep.1 hstep.2).quiet

/-! ## Whole scripts -/

theorem Reflects.runScript {script : List Step} (h : b.Reflects o)
    (hscript : ∀ step ∈ script, step.Fits) :
    (b.runScript script).2.Reflects (script.foldl Outline.after o) := by
  induction script generalizing b o with
  | nil => exact h
  | cons step rest ih =>
    rw [List.forall_mem_cons] at hscript
    exact ih (h.perform hscript.1) hscript.2

theorem sound_blank : blank.Sound where
  meant := by simp [blank]
  index := by simp [blank]
  next := rfl

/-- The part of `name` that names the class. -/
def naming (this : String) : BuilderM Unit := do
  let index ← classRef this
  modifyTables fun t => { t with this := index }

theorem name_eq (this : String) :
    name this = naming this >>= fun _ => superClass "java/lang/Object" := by
  rw [name, naming, bind_assoc]

theorem run_seq (first second : BuilderM Unit) (b : Builder) :
    ((first >>= fun _ => second).run b).2 = (second.run (first.run b).2).2 := rfl

-- Before this there is no outline: the class of a blank builder has no name that could be followed.
theorem reflects_naming {this : String} (hthis : Text.Short this) :
    ((naming this).run blank).2.Reflects { Outline.start this with super := none } := by
  refine reflects_of_gives sound_blank (gives_classRef hthis) fun index pool hindex _ => ?_
  exact {
    version := rfl
    access := rfl
    this := Except.bind_eq_ok.mpr ⟨_, hindex, rfl⟩
    super := rfl
    interfaces := rfl
    fields := .nil
    methods := .nil
    attributes := .nil }

theorem reflects_new {this : String} (hthis : Text.Short this) :
    (new this).Reflects (.start this) := by
  have hobject : Text.Short "java/lang/Object" := by decide
  rw [new, name_eq, run_seq]
  exact (reflects_naming hthis).superClass hobject

/-! ## The image of a script -/

/-- Whether what is asked for stays within the limits of the format: the texts and bodies, one by one,
and the number of constants, in slots, and of everything else that is counted. -/
structure Within (this : String) (script : List Step) : Prop where
  name : Text.Short this
  steps : ∀ step ∈ script, step.Fits
  constants : ((new this).runScript script).2.nextIndex < UInt16.size
  interfaces : (outline this script).interfaces.length < UInt16.size
  fields : (outline this script).fields.length < UInt16.size
  methods : (outline this script).methods.length < UInt16.size
  attributes : (outline this script).attributes.length < UInt16.size

/-- The tables have as many items as the outline, each of which can be written. -/
theorem Outline.Describes.fits {this : String} {script : List Step} {f : ClassFile}
    (h : (outline this script).Describes f) (hwithin : Within this script) :
    f.toClassTables.Fits := by
  obtain ⟨-, -, -, -, hinterfaces, hfields, hmethods, hattributes⟩ := h
  have hcount := (Except.mapM_eq_ok_iff.mp hinterfaces).length_eq
  rw [List.length_map] at hcount
  refine ⟨hcount ▸ hwithin.interfaces, ⟨hfields.length_eq ▸ hwithin.fields, ?_⟩,
    ⟨hmethods.length_eq ▸ hwithin.methods, ?_⟩, ⟨hattributes.length_eq ▸ hwithin.attributes, ?_⟩⟩
  · exact ((List.forall₂_and_left _ _).mp (hfields.imp fun _ _ hm => ⟨hm.fits, hm⟩)).1
  · exact ((List.forall₂_and_left _ _).mp (hmethods.imp fun _ _ hm => ⟨hm.fits, hm⟩)).1
  · exact ((List.forall₂_and_left _ _).mp (hattributes.imp fun _ _ ha => ⟨ha.fits, ha⟩)).1

theorem Reflects.exists_parse (h : b.Reflects o) (hroom : b.nextIndex < UInt16.size)
    (hfits : ∀ f, o.Describes f → f.toClassTables.Fits) :
    ∃ f, ClassFile.parse b.build = .ok f ∧ o.Describes f := by
  obtain ⟨pool, hpool, hparse⟩ := h.sound.exists_pool hroom
  have hdescribes := h.describes pool hpool
  exact ⟨_, hparse (hfits _ hdescribes), hdescribes⟩

/-- **A script builds the class that it describes.** Within the limits of the format, the image of a
script parses, and the class that is parsed from it is that of the outline. -/
theorem parse_build_describes {this : String} {script : List Step} (h : Within this script) :
    ∃ f, ClassFile.parse ((new this).runScript script).2.build = .ok f ∧
      (outline this script).Describes f := by
  have hreflects : ((new this).runScript script).2.Reflects (outline this script) :=
    (reflects_new h.name).runScript h.steps
  exact hreflects.exists_parse h.constants fun f hf => hf.fits h

/-- Constants are shared with the name of the class, with the names that a builder uses by itself and
with each other, and asked for between the members. -/
def sampleScript : List Step := [
  .utf8 "Code", .interface "é", .long (-1), .field "Deprecated" "J",
  .raw [0x01, 0x00, 0x02, 0xC0, 0x80], .method "run" "()V" (some [0xB1]),
  .double 0x7FF8000000000001, .superClass "é", .version 61 3, .method "\x00😀" "J" none,
  .methodAt 0 0xFFFF, .memberRef .field "é" "run" "J", .noSuperClass,
  .interface "java/lang/Object", .addAttribute "Code" [0x00, 0x01], .addAttribute "Code" []
  ]

theorem parse_build_describes_sample :
    Within "é" sampleScript ∧
    ∃ f, ClassFile.parse ((new "é").runScript sampleScript).2.build = .ok f ∧
      (outline "é" sampleScript).Describes f := by
  have hraw : ∃ c : Constant, c.WrittenAs [0x01, 0x00, 0x02, 0xC0, 0x80] ∧ c.isWide = false :=
    ⟨.utf8 "\x00", ⟨Text.ModifiedUtf8.encode, ⟨by decide, Text.decode_modified _⟩, by decide⟩, rfl⟩
  have hsteps : ∀ step ∈ sampleScript, step.Fits := by
    simp only [sampleScript, List.forall_mem_cons, Step.Fits]
    exact ⟨by decide, by decide, trivial, by decide, hraw, by decide, trivial, by decide, trivial,
      by decide, trivial, by decide, trivial, by decide, by decide, by decide, List.forall_mem_nil _⟩
  have h : Within "é" sampleScript :=
    ⟨by decide, hsteps, by decide +kernel, by decide, by decide, by decide, by decide⟩
  exact ⟨h, parse_build_describes h⟩

end Builder

end JvmTrace
