import Ldap.Proofs.Registry.Strictness

/-! Objects with the OID of another type. The decoder of a type looks for its OID before anything
else, but its reader looks at the envelope first: the policy of the type and fields that are not
known come before the OID. -/
namespace Ldap
open Json

theorem Strictness.objectFault?_eq_none_iff {p : Strictness} {fields : Fields} :
    p.objectFault? (.object fields) = none ↔
      (p.topLevel → ∀ name ∈ fields.names, name ∈ ControlObject.fieldNames) := by
  rw [objectFault?, ← Fields.stray?_eq_none_iff]
  cases p.topLevel <;> simp

theorem Strictness.objectFault?_refuses {p : Strictness} {v : Json} {e : DecodeError}
    (refused : p.objectFault? v = some e) : ∃ name, e = .unrecognizedField name .controlObject := by
  unfold objectFault? at refused
  split at refused
  · split at refused
    · obtain ⟨name, _, rfl⟩ := Option.map_eq_some_iff.1 refused
      exact ⟨name, rfl⟩
    · cases refused
  · cases refused

namespace ControlObject
variable {fields : Fields} {c : ControlObject}

theorem ofJson_of_heldBy (held : c.HeldBy fields) (policy : ValuePolicy) (p : Strictness) :
    ofJson policy p (.object fields) = (do
      c.value.check c.oid policy
      refuse (p.objectFault? (.object fields))
      return c) := by
  have lenient : ofJson policy .lenient (.object fields) =
      (do c.value.check c.oid policy; return c) := by
    rw [ofJson_of_held held]
    rfl
  rw [ofJson_eq_refuse, lenient, bind_assoc]
  rfl

end ControlObject

namespace RequestControl
variable {fields : Fields} {c : ControlObject} {kind : Request.Kind}

theorem ofJson_foreign (held : c.HeldBy fields) (foreign : c.oid ≠ kind.oid) (p : Strictness) :
    ofJson kind p (.object fields) = (do
      c.value.check c.oid kind.policy
      refuse (p.objectFault? (.object fields))
      .error (.typeMismatch "oid" .typeOid)) := by
  have refused : c.expectOid kind.oid = .error (.typeMismatch "oid" .typeOid) := if_neg foreign
  rw [ofJson, ControlObject.ofJson_of_heldBy held]
  cases c.value.check c.oid kind.policy with
  | error e => rfl
  | ok _ =>
    cases p.objectFault? (.object fields) with
    | some e => rfl
    | none =>
      change (do c.expectOid kind.oid; _) = _
      rw [refused]
      rfl

/-- An object that is well formed field by field, with the OID of another type, is always refused
for its OID by the decoder of a type. Its reader does so if and only if the policy of the type
admits the value and every field is known where unknown fields are refused; otherwise the object
is refused for its value or for the first such field. -/
theorem foreign_object_blamed_iff (held : c.HeldBy fields) (foreign : c.oid ≠ kind.oid)
    (p : Strictness) :
    (Decoder.ofKind kind).decodeJson p (.object fields) = .error (.typeMismatch "oid" .typeOid) ∧
    (ofJson kind p (.object fields) = .error (.typeMismatch "oid" .typeOid) ↔
      kind.policy.Admits c.value ∧
      (p.topLevel → ∀ name ∈ fields.names, name ∈ ControlObject.fieldNames)) ∧
    (kind.policy = .forbidden → c.value ≠ .absent →
      ofJson kind p (.object fields) = .error (.unexpectedValue c.oid)) ∧
    (kind.policy = .required → c.value = .absent →
      ofJson kind p (.object fields) = .error (.conflictingValue c.oid .noForm)) ∧
    (kind.policy.Admits c.value → p.topLevel →
      ∀ name, fields.stray? ControlObject.fieldNames = some name →
      ofJson kind p (.object fields) = .error (.unrecognizedField name .controlObject)) := by
  have there : (Json.object fields).field? "oid" = some (.string c.oid) := held.oid
  rw [Decoder.decodeJson_ofKind there, if_neg foreign, ofJson_foreign held foreign]
  refine ⟨rfl, ⟨fun blamed => ?_, fun ⟨admitted, known⟩ => ?_⟩, fun forbidden present => ?_,
    fun required missing => ?_, fun admitted strict name found => ?_⟩
  · rw [← @ValueForm.check_ok_iff c.oid, ← Strictness.objectFault?_eq_none_iff]
    cases checked : c.value.check c.oid kind.policy with
    | error e =>
      rw [checked] at blamed
      rcases ValueForm.check_refuses checked with rfl | rfl <;> cases blamed
    | ok _ =>
      refine ⟨rfl, ?_⟩
      cases fault : p.objectFault? (.object fields) with
      | none => rfl
      | some e =>
        obtain ⟨name, rfl⟩ := Strictness.objectFault?_refuses fault
        rw [checked, fault] at blamed
        cases blamed
  · rw [ValueForm.check_ok_iff.2 admitted, Strictness.objectFault?_eq_none_iff.2 known]
    rfl
  · have refused : c.value.check c.oid kind.policy = .error (.unexpectedValue c.oid) := by
      rw [forbidden]
      cases value : c.value with
      | absent => exact absurd value present
      | raw s => rfl
      | structured inner => rfl
    rw [refused]
    rfl
  · rw [required, missing]
    rfl
  · have fault : p.objectFault? (.object fields) =
        some (.unrecognizedField name .controlObject) := by
      rw [Strictness.objectFault?, if_pos strict, found]
      rfl
    rw [ValueForm.check_ok_iff.2 admitted, fault]
    rfl

def otherOid : Fields :=
  [("oid", .string "1.2.3"), ("criticality", .bool true), ("value-json", .object [("size", .null)])]

theorem other_oid_blamed :
    (ControlObject.mk "1.2.3" none true (.structured [("size", .null)])).HeldBy otherOid ∧
    ("1.2.3" : String) ≠ Request.Kind.sync.oid ∧
    (Decoder.ofKind .sync).decodeJson ⟨true, true⟩ (.object otherOid) =
      .error (.typeMismatch "oid" .typeOid) ∧
    ofJson .sync ⟨true, true⟩ (.object otherOid) = .error (.typeMismatch "oid" .typeOid) := by
  have held :
      (ControlObject.mk "1.2.3" none true (.structured [("size", .null)])).HeldBy otherOid :=
    ⟨by decide, rfl, rfl, rfl, .structured rfl rfl⟩
  have known : ∀ name ∈ otherOid.names, name ∈ ControlObject.fieldNames := by decide
  have foreign : ("1.2.3" : String) ≠ Request.Kind.sync.oid := by decide
  have blamed := foreign_object_blamed_iff held foreign ⟨true, true⟩
  exact ⟨held, foreign, blamed.1, blamed.2.1.2 ⟨nofun, fun _ => known⟩⟩

/-- A value that the type does not have hides the OID that it does not have either. -/
theorem value_hides_foreign_oid :
    (ControlObject.mk "1.2.3" none true (.raw [])).HeldBy
      [("oid", .string "1.2.3"), ("criticality", .bool true), ("value-base64", .string "")] ∧
    ("1.2.3" : String) ≠ Request.Kind.suppressReferentialIntegrity.oid ∧
    ofJson .suppressReferentialIntegrity .lenient
      (.object [("oid", .string "1.2.3"), ("criticality", .bool true),
        ("value-base64", .string "")]) =
      .error (.unexpectedValue "1.2.3") ∧
    (Decoder.ofKind .suppressReferentialIntegrity).decodeJson .lenient
      (.object [("oid", .string "1.2.3"), ("criticality", .bool true),
        ("value-base64", .string "")]) =
      .error (.typeMismatch "oid" .typeOid) :=
  ⟨⟨by decide, rfl, rfl, rfl, .raw rfl rfl rfl⟩, by decide, rfl, rfl⟩

end RequestControl
end Ldap
