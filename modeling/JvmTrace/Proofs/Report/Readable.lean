import JvmTrace.Proofs.Json.Printed
import JvmTrace.Report

/-!
# The text of a report determines its document

What a reader of JSON gets out of a report is written down here as a value, the form of a document,
key by key. The texts in a document come from class files and may hold anything, quotation marks and
line breaks and whole JSON texts included. None of that can be taken for the structure of the report:
the text says the form (`Json/Printed.lean`), and it says nothing else (`Json/Grammar.lean`).

A form tells its document. Nearly all keys are always there; of the two that may be missing in an
instruction, `var` and `type`, each has a name of its own, and a slot and a name are values of
different kinds.
-/

set_option autoImplicit false

namespace JvmTrace

open JsonGrammar

/-! ## Forms -/

def Variable.form : Variable → Value
  | slot number => .number (Rat.ofInt number.toNat)
  | name text => .string text

def OperationDocument.form (d : OperationDocument) : Value :=
  .object (("op", .string d.operation) ::
    ((d.subject.map fun v => ("var", v.form)).toList ++
      (d.descriptor.map fun text => ("type", .string text)).toList))

def MethodDocument.form (d : MethodDocument) : Value :=
  .object [
    ("method", .string d.name),
    ("signature", .string d.signature),
    ("input", .array (d.input.map .string)),
    ("output", .string d.output),
    ("ops", .array (d.operations.map OperationDocument.form))]

def ClassDocument.form (d : ClassDocument) : Value :=
  .object [
    ("kind", .string d.kind),
    ("clazz", .string d.className),
    ("method", .array (d.methods.map MethodDocument.form))]

/-! ## The printed value is the form -/

theorem Json.itemValues_map {α : Type} (f : α → Json) (xs : List α) :
    itemValues (xs.map f) = xs.map fun x => (f x).value := by
  induction xs with
  | nil => rfl
  | cons x xs ih => simp [itemValues, ih]

theorem Variable.value_toJson (v : Variable) : v.toJson.value = v.form := by
  cases v <;> rfl

theorem OperationDocument.value_toJson (d : OperationDocument) : d.toJson.value = d.form := by
  obtain ⟨operation, subject, descriptor⟩ := d
  cases subject <;> cases descriptor <;>
    simp [toJson, form, optionalField, Json.value, Json.fieldValues, Variable.value_toJson]

theorem MethodDocument.value_toJson (d : MethodDocument) : d.toJson.value = d.form := by
  simp [toJson, form, Json.value, Json.fieldValues, Json.itemValues_map,
    OperationDocument.value_toJson]

theorem ClassDocument.value_toJson (d : ClassDocument) : d.toJson.value = d.form := by
  simp [toJson, form, Json.value, Json.fieldValues, Json.itemValues_map, MethodDocument.value_toJson]

/-! ## A form tells its document -/

theorem Variable.form_injective : Function.Injective Variable.form := by
  intro v w h
  cases v with
  | slot m =>
    cases w with
    | slot n =>
      have hnumber : (m.toNat : Int) = n.toNat := congrArg Rat.num (Value.number.inj h)
      rw [UInt16.toNat_inj.mp (Int.ofNat_inj.mp hnumber)]
    | name => cases h
  | name text =>
    cases w with
    | slot => cases h
    | name => rw [Value.string.inj h]

theorem OperationDocument.form_injective : Function.Injective OperationDocument.form := by
  intro d e h
  obtain ⟨operation, subject, descriptor⟩ := d
  obtain ⟨operation', subject', descriptor'⟩ := e
  cases subject <;> cases descriptor <;> cases subject' <;> cases descriptor' <;>
    simp_all [form, Variable.form_injective.eq_iff]

theorem MethodDocument.form_injective : Function.Injective MethodDocument.form := by
  intro d e h
  have hinput : Function.Injective (List.map Value.string) :=
    List.map_injective_iff.mpr fun _ _ => Value.string.inj
  have hoperations := List.map_injective_iff.mpr OperationDocument.form_injective
  obtain ⟨⟩ := d
  obtain ⟨⟩ := e
  simpa [form, hinput.eq_iff, hoperations.eq_iff] using h

theorem ClassDocument.form_injective : Function.Injective ClassDocument.form := by
  intro d e h
  have hmethods := List.map_injective_iff.mpr MethodDocument.form_injective
  obtain ⟨⟩ := d
  obtain ⟨⟩ := e
  simpa [form, hmethods.eq_iff] using h

/-! ## The text of a report -/

theorem ClassTrace.text_json (t : ClassTrace) : Text t.document.form t.json.toList := by
  rw [← ClassDocument.value_toJson]
  exact Json.text_pretty t.document.toJson

/-- **The text of a report determines its document.** It is JSON, it says the form of the document and
nothing else, and only traces with the same document have the same text. -/
theorem json_says_document (t : ClassTrace) :
    (∀ v, Text v t.json.toList ↔ v = t.document.form) ∧
      ∀ u : ClassTrace, u.json = t.json ↔ u.document = t.document := by
  refine ⟨fun v => ⟨fun h => h.unique t.text_json, ?_⟩, fun u => ⟨fun h => ?_, fun h => ?_⟩⟩
  · rintro rfl
    exact t.text_json
  · have hu := u.text_json
    rw [h] at hu
    exact ClassDocument.form_injective (hu.unique t.text_json)
  · rw [ClassTrace.json, h, ClassTrace.json]

-- A name that looks like the rest of a report is still a name.
example : (ClassTrace.mk "class" "A\", \"method\": []" []).json =
    "\x7b\n  \"kind\": \"class\",\n  \"clazz\": \"A\\\", \\\"method\\\": []\",\n  \"method\": []\n\x7d" := by
  decide +kernel

end JvmTrace
