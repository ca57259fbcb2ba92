import Ldap.ControlObject
import Ldap.Proofs.Json.Document
import Ldap.Proofs.Json.Fields

/-! The JSON object of a control, written and read back under every strictness, in any order of
its fields. -/
namespace Ldap
open Json

theorem Strictness.checkValue_known {known : List String} {fields : Fields}
    (h : fields.unknown known = []) (q : Strictness) : q.checkValue known fields = .ok () := by
  unfold checkValue
  split
  · rw [Fields.refuseUnknown, h]
  · rfl

def ValuePolicy.Admits : ValuePolicy → ValueForm → Prop
  | .forbidden, value => value = .absent
  | .optional, _ => True
  | .required, value => value ≠ .absent

theorem ValueForm.check_ok_iff {oid : String} {policy : ValuePolicy} {value : ValueForm} :
    value.check oid policy = .ok () ↔ policy.Admits value := by
  cases value <;> cases policy <;> simp [check, ValuePolicy.Admits]

theorem ValueForm.check_refuses {oid : String} {policy : ValuePolicy} {value : ValueForm}
    {e : DecodeError} (refused : value.check oid policy = .error e) :
    e = .unexpectedValue oid ∨ e = .conflictingValue oid .noForm := by
  cases value <;> cases policy <;> simp_all [check]

/-- The fields hold a form of a value: at most one of the two is there, and that one is well
formed. -/
inductive ValueForm.HeldBy (fields : Fields) : ValueForm → Prop
  | absent :
    fields.get? "value-base64" = none → fields.get? "value-json" = none → HeldBy fields .absent
  | raw {text : String} {s : Octets} : fields.get? "value-base64" = some (.string text) →
      Fields.ofBase64 "value-base64" text = .ok s → fields.get? "value-json" = none →
        HeldBy fields (.raw s)
  | structured {inner : Fields} : fields.get? "value-base64" = none →
      fields.get? "value-json" = some (.object inner) → HeldBy fields (.structured inner)

/-- The fields hold what makes up a control object, whatever other fields there are. -/
structure ControlObject.HeldBy (fields : Fields) (c : ControlObject) : Prop where
  named : c.oid ≠ ""
  oid : fields.get? "oid" = some (.string c.oid)
  name : fields.get? "control-name" = c.name.map .string
  criticality : fields.get? "criticality" = some (.bool c.critical)
  value : c.value.HeldBy fields

namespace ControlObject
variable {fields : Fields} {c : ControlObject}

theorem readOid_ok_iff {oid : String} :
    readOid fields = .ok oid ↔ oid ≠ "" ∧ fields.get? "oid" = some (.string oid) := by
  constructor
  · intro read
    unfold readOid at read
    split at read
    · cases read
    · rename_i found
      split at read
      · cases read
      · rename_i nonempty
        cases read
        exact ⟨nonempty, found⟩
    · cases read
  · rintro ⟨named, there⟩
    simp only [readOid, there, if_neg named]

theorem readCriticality_ok_iff {critical : Bool} :
    readCriticality fields = .ok critical ↔ fields.get? "criticality" = some (.bool critical) := by
  constructor
  · intro read
    unfold readCriticality at read
    split at read
    · cases read
    · cases read
      assumption
    · cases read
  · intro there
    simp only [readCriticality, there]

theorem HeldBy.readValue (held : c.HeldBy fields) (oid : String) :
    ControlObject.readValue oid fields = .ok c.value := by
  have value := held.value
  revert value
  generalize c.value = value
  rintro (⟨octets, inner⟩ | ⟨octets, read, inner⟩ | ⟨octets, inner⟩)
  · simp only [ControlObject.readValue, octets, inner]
  · simp [ControlObject.readValue, octets, inner, read]
  · simp only [ControlObject.readValue, octets, inner]

theorem names_toFields_nodup (c : ControlObject) : c.toFields.names.Nodup := by
  obtain ⟨oid, name, critical, value⟩ := c
  cases name <;> cases value <;> simp [toFields, valueFields, Fields.names]

@[simp] theorem unknown_toFields (c : ControlObject) : c.toFields.unknown fieldNames = [] := by
  obtain ⟨oid, name, critical, value⟩ := c
  cases name <;> cases value <;> simp [toFields, valueFields, Fields.unknown,
    Fields.names, fieldNames]

theorem heldBy_of_perm (named : c.oid ≠ "") (order : fields.Perm c.toFields) : c.HeldBy fields := by
  have same := Fields.get?_perm order c.names_toFields_nodup
  obtain ⟨oid, name, critical, value⟩ := c
  have octets : fields.get? "value-base64" = (valueFields value).get? "value-base64" := by
    rw [same]
    cases name <;> rfl
  have inner : fields.get? "value-json" = (valueFields value).get? "value-json" := by
    rw [same]
    cases name <;> rfl
  refine ⟨named, ?_, ?_, ?_, ?_⟩
  · rw [same]
    rfl
  · rw [same]
    cases name <;> cases value <;> rfl
  · rw [same]
    cases name <;> rfl
  · cases value with
    | absent => exact .absent octets inner
    | raw s => exact .raw octets (Fields.ofBase64_encode _ s) inner
    | structured value => exact .structured octets inner

theorem ofJson_of_held (held : c.HeldBy fields) (policy : ValuePolicy) (q : Strictness) :
    ofJson policy q (.object fields) = (do
      c.value.check c.oid policy
      if q.topLevel then fields.refuseUnknown .controlObject fieldNames
      return c) := by
  rw [ofJson, ofFields, readOid_ok_iff.2 ⟨held.named, held.oid⟩, ok_bind,
    Fields.string?_of_get? held.name, ok_bind, readCriticality_ok_iff.2 held.criticality, ok_bind,
    held.readValue, ok_bind]

theorem ofJson_of_known (held : c.HeldBy fields) (known : fields.unknown fieldNames = [])
    (policy : ValuePolicy) (q : Strictness) :
    ofJson policy q (.object fields) = (do c.value.check c.oid policy; return c) := by
  have allowed : fields.refuseUnknown .controlObject fieldNames = .ok () := by
    rw [Fields.refuseUnknown, known]
  rw [ofJson_of_held held, allowed]
  congr 1
  funext _
  split <;> rfl

theorem ofJson_toJson_check {policy : ValuePolicy} {c : ControlObject} (named : c.oid ≠ "")
    (q : Strictness) :
    ofJson policy q c.toJson = (do c.value.check c.oid policy; return c) :=
  ofJson_of_known (heldBy_of_perm named (.refl _)) c.unknown_toFields policy q

theorem ofJson_toJson {policy : ValuePolicy} {c : ControlObject} (named : c.oid ≠ "")
    (allowed : c.value.check c.oid policy = .ok ()) (q : Strictness) :
    ofJson policy q c.toJson = .ok c := by
  rw [ofJson_toJson_check named, allowed, ok_bind]
  rfl

theorem heldBy_of_readValue {oid : String} {value : ValueForm}
    (read : readValue oid fields = .ok value) :
    value.HeldBy fields := by
  unfold readValue at read
  split at read
  · cases read
  · rename_i octets inner
    obtain ⟨s, spelled, rfl⟩ := map_ok_iff.1 read
    exact .raw octets spelled inner
  · cases read
  · rename_i octets inner
    cases read
    exact .structured octets inner
  · cases read
  · rename_i octets inner
    cases read
    exact .absent octets inner

theorem heldBy_of_ofJson {policy : ValuePolicy} {q : Strictness}
    (read : ofJson policy q (.object fields) = .ok c) : c.HeldBy fields := by
  obtain ⟨oid, readName, read⟩ := bind_ok_iff.1 read
  obtain ⟨name, readLabel, read⟩ := bind_ok_iff.1 read
  obtain ⟨critical, readCritical, read⟩ := bind_ok_iff.1 read
  obtain ⟨value, readForm, read⟩ := bind_ok_iff.1 read
  obtain ⟨_, _, read⟩ := bind_ok_iff.1 read
  have parts : c = ⟨oid, name, critical, value⟩ := by
    split at read
    · obtain ⟨_, _, read⟩ := bind_ok_iff.1 read
      cases read
      rfl
    · cases read
      rfl
  subst parts
  obtain ⟨named, there⟩ := readOid_ok_iff.1 readName
  exact ⟨named, there, Fields.string?_ok_iff.1 readLabel, readCriticality_ok_iff.1 readCritical,
    heldBy_of_readValue readForm⟩

theorem ofJson_ok {policy : ValuePolicy} {q : Strictness} {v : Json} {c : ControlObject}
    (h : ofJson policy q v = .ok c) : c.oid ≠ "" ∧ v.field? "oid" = some (.string c.oid) := by
  cases v with
  | object fields =>
    have held := heldBy_of_ofJson h
    exact ⟨held.named, held.oid⟩
  | _ => cases h

theorem toJson_plain {c : ControlObject}
    (h : ∀ fields, c.value = .structured fields → Plain 2 (.object fields)) :
    Plain 3 c.toJson := by
  obtain ⟨oid, name, critical, value⟩ := c
  have value_plain : ∀ field ∈ valueFields value, Plain 2 field.2 := by
    cases value with
    | absent => simp [valueFields]
    | raw s => simpa [valueFields] using Plain.string 2 _
    | structured fields => simpa [valueFields] using h fields rfl
  refine .object (names_toFields_nodup _) ?_
  simp only [toFields, List.forall_mem_cons, List.forall_mem_append, List.forall_mem_map]
  exact ⟨.string _ _, fun _ _ => .string _ _, .bool _ _, value_plain⟩

end ControlObject
end Ldap
