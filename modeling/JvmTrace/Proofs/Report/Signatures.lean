import JvmTrace.Builder.Script
import JvmTrace.Proofs.Descriptor.Grammar
import JvmTrace.Proofs.Trace.Selection
import JvmTrace.Report

/-!
# A document says what the class says

A report has, for every method, the descriptor as the class spells it and the same descriptor taken
apart. Nothing compares the two when a report is made. They agree because a descriptor is parsed
exactly from what spells it (`Descriptor/Grammar.lean`), so spelling the parsed types again, one after
the other, gives the text back, and each piece is a descriptor by itself.

The statement is about whatever image can be traced, under any settings, and about the class file that
is parsed from it: `MethodDocument.Reports` compares an entry of the document with the member that it
stems from, and there are exactly as many, in the same order.
-/

set_option autoImplicit false

namespace JvmTrace

/-! ## Descriptors, taken apart -/

theorem FieldType.parse_descriptor {t : FieldType} (h : t.WellFormed) :
    FieldType.parse t.descriptor = .ok t := by
  have hread : FieldType.read t.descriptor.toList = some (t, []) := by
    rw [FieldType.read_eq_some_iff, FieldType.descriptor, String.toList_ofList, List.append_nil]
    exact ⟨h, rfl⟩
  rw [FieldType.parse, hread]

theorem ReturnType.parse_descriptor {t : ReturnType} (h : t.WellFormed) :
    t.descriptor = "V" ∨ ∃ type, FieldType.parse t.descriptor = .ok type := by
  cases t with
  | void => exact Or.inl rfl
  | value type => exact Or.inr ⟨type, FieldType.parse_descriptor h⟩

theorem MethodDescriptor.of_parse {text : String} {d : MethodDescriptor}
    (h : MethodDescriptor.parse text = .ok d) : d.WellFormed ∧ text = d.descriptor := by
  unfold MethodDescriptor.parse at h
  split at h
  · next parsed hread =>
    cases h
    obtain ⟨hformed, htext⟩ := MethodDescriptor.read_eq_some_iff.mp hread
    rw [List.append_nil] at htext
    exact ⟨hformed, by rw [descriptor, ← htext, String.ofList_toList]⟩
  · cases h

/-- A method descriptor is the descriptors of its parts, with nothing between them but the
parentheses. -/
theorem MethodDescriptor.descriptor_eq (d : MethodDescriptor) :
    d.descriptor = "(" ++ String.join (d.arguments.map FieldType.descriptor) ++ ")" ++
      d.result.descriptor := by
  rw [← String.toList_inj]
  simp [descriptor, descriptorChars, ReturnType.descriptor, FieldType.descriptor, List.flatMap_map]

/-! ## Documents -/

/-- Whether the document of a method reports a member: its texts, and its descriptor taken apart. -/
structure MethodDocument.Reports (d : MethodDocument) (pool : Pool) (m : Member) : Prop where
  name : pool.utf8 m.name = .ok d.name
  signature : pool.utf8 m.descriptor = .ok d.signature
  parts : d.signature = "(" ++ String.join d.input ++ ")" ++ d.output
  input : ∀ text ∈ d.input, ∃ type, FieldType.parse text = .ok type
  output : d.output = "V" ∨ ∃ type, FieldType.parse d.output = .ok type

theorem Member.toMethod_eq_ok {pool : Pool} {m : Member} {view : Method}
    (h : m.toMethod pool = .ok view) :
    pool.utf8 m.name = .ok view.name ∧ pool.utf8 m.descriptor = .ok view.signature ∧
      MethodDescriptor.parse view.signature = .ok view.descriptor := by
  unfold Member.toMethod at h
  obtain ⟨name, hname, h⟩ := Except.bind_eq_ok.mp h
  obtain ⟨signature, hsignature, h⟩ := Except.bind_eq_ok.mp h
  obtain ⟨descriptor, hdescriptor, h⟩ := Except.bind_eq_ok.mp h
  cases h
  exact ⟨hname, hsignature, hdescriptor⟩

theorem MethodTrace.reports_document {pool : Pool} {m : Member} {view : Method} {c : Config}
    {t : MethodTrace} (hview : m.toMethod pool = .ok view) (htrace : view.trace c pool = .ok t) :
    t.document.Reports pool m := by
  obtain ⟨hname, hsignature, hparse⟩ := Member.toMethod_eq_ok hview
  obtain ⟨hheader, -⟩ := Method.trace_eq_ok htrace
  obtain ⟨⟨harguments, hresult⟩, htext⟩ := MethodDescriptor.of_parse hparse
  simp only [MethodTrace.header, Method.header, Prod.mk.injEq] at hheader
  obtain ⟨hname', hsignature', hdescriptor'⟩ := hheader
  rw [← hname'] at hname
  rw [← hsignature'] at hsignature htext
  rw [← hdescriptor'] at htext harguments hresult
  constructor
  · exact hname
  · exact hsignature
  · exact htext.trans t.descriptor.descriptor_eq
  · intro text hmem
    obtain ⟨type, htype, rfl⟩ := List.mem_map.mp hmem
    exact ⟨type, FieldType.parse_descriptor (harguments type htype)⟩
  · exact ReturnType.parse_descriptor hresult

theorem forall₂_comp {α β γ : Type} {R : α → β → Prop} {S : β → γ → Prop} {xs : List α}
    {ys : List β} {zs : List γ} (h : List.Forall₂ R xs ys) (h' : List.Forall₂ S ys zs) :
    List.Forall₂ (fun x z => ∃ y, R x y ∧ S y z) xs zs := by
  induction h generalizing zs with
  | nil =>
    cases h'
    exact .nil
  | cons hr _ ih =>
    cases h' with
    | cons hs htail => exact .cons ⟨_, hr, hs⟩ (ih htail)

/-- Whether a text is another with its slashes replaced by dots and nothing else changed. -/
def Text.Dots (name dotted : String) : Prop :=
  List.Forall₂ (fun c d => if c = '/' then d = '.' else d = c) name.toList dotted.toList

theorem Text.dots_dotted (name : String) : Text.Dots name (Text.dotted name) := by
  rw [Dots, dotted, String.toList_ofList, List.forall₂_map_right_iff, List.forall₂_same]
  intro c _
  by_cases h : c = '/' <;> simp [h]

/-- **A document says what the class says.** -/
theorem document_reports {c : Config} {image : Bytes} {t : ClassTrace}
    (h : traceImage c image = .ok t) :
    ∃ f name, ClassFile.parse image = .ok f ∧
      f.pool.className f.this = .ok name ∧ Text.Dots name t.document.className ∧
      List.Forall₂ (fun m d => MethodDocument.Reports d f.pool m) f.methods t.document.methods := by
  unfold traceImage at h
  obtain ⟨f, hf, h⟩ := Except.bind_eq_ok.mp h
  obtain ⟨this, views, hthis, hviews, hname, hentries⟩ := ClassFile.trace_eq_ok h
  obtain ⟨name, hclass, hthis⟩ := Except.bind_eq_ok.mp hthis
  cases hthis
  refine ⟨f, name, hf, hclass, ?_, ?_⟩
  · change Text.Dots name t.className
    rw [hname]
    exact Text.dots_dotted name
  · change List.Forall₂ _ f.methods (t.methods.map MethodTrace.document)
    rw [List.forall₂_map_right_iff]
    refine (forall₂_comp (Except.mapM_eq_ok_iff.mp hviews) hentries).imp ?_
    rintro m entry ⟨view, hview, hentry⟩
    exact MethodTrace.reports_document hview hentry

/-- A class with a method whose descriptor is easy to take apart wrongly, and one without a body. -/
def reportedImage : Bytes :=
  ((Builder.new "a/B").runScript [.method "run" "(L)V[;[[I)V" (some [0x2A, 0xB1]),
    .method "get" "()La/B;" none]).2.build

def reportedTrace : ClassTrace where
  kind := "Controller"
  className := "a.B"
  methods := [
    ⟨"run", "(L)V[;[[I)V", ⟨[⟨.object ")V[", 0⟩, ⟨.int, 2⟩], .void⟩, [⟨1, "return", []⟩]⟩,
    ⟨"get", "()La/B;", ⟨[], .value ⟨.object "a/B", 0⟩⟩, []⟩]

theorem document_reports_sample :
    traceImage {} reportedImage = .ok reportedTrace ∧
    ∃ f name, ClassFile.parse reportedImage = .ok f ∧
      f.pool.className f.this = .ok name ∧ Text.Dots name reportedTrace.document.className ∧
      List.Forall₂ (fun m d => MethodDocument.Reports d f.pool m) f.methods
        reportedTrace.document.methods := by
  have h : traceImage {} reportedImage = .ok reportedTrace := by decide +kernel
  exact ⟨h, document_reports h⟩

end JvmTrace
