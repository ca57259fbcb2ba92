import Ldap.Proofs.ControlObject
import Ldap.Proofs.Text.Spelling

/-! Which JSON values are control objects. `Describes` is the grammar, under a policy about the
value and a strictness; it holds of an object and a control object if and only if the one is read
as the other. What is written is in the grammar of what it was written for, so that it is read
back wherever the policy lets it. -/
namespace Ldap
open Json

namespace ControlObject
variable {fields : Fields} {policy : ValuePolicy} {p : Strictness} {c : ControlObject}

theorem ofJson_held_ok_iff (held : c.HeldBy fields) : ofJson policy p (.object fields) = .ok c ↔
    policy.Admits c.value ∧ (p.topLevel → ∀ name ∈ fields.names, name ∈ fieldNames) := by
  rw [ofJson_of_held held, ← @ValueForm.check_ok_iff c.oid,
    ← @Fields.refuseUnknown_ok_iff _ .controlObject]
  cases c.value.check c.oid policy with
  | error e => simp
  | ok _ =>
    cases p.topLevel with
    | false => simp [pure, Except.pure]
    | true => cases fields.refuseUnknown .controlObject fieldNames <;> simp [pure, Except.pure]

/-- The grammar of control objects: what makes up the control object is there and well formed, the
policy admits its value, and there is no other field where such are refused. -/
inductive Describes (policy : ValuePolicy) (p : Strictness) : Json → ControlObject → Prop
  | intro {fields : Fields} {c : ControlObject} : c.HeldBy fields → policy.Admits c.value →
      (p.topLevel → ∀ name ∈ fields.names, name ∈ fieldNames) →
        Describes policy p (.object fields) c

theorem ofJson_ok_iff {v : Json} : ofJson policy p v = .ok c ↔ Describes policy p v c := by
  constructor
  · intro read
    cases v with
    | object fields =>
      have held := heldBy_of_ofJson read
      obtain ⟨admitted, known⟩ := (ofJson_held_ok_iff held).1 read
      exact .intro held admitted known
    | _ => cases read
  · rintro ⟨held, admitted, known⟩
    exact (ofJson_held_ok_iff held).2 ⟨admitted, known⟩

theorem not_heldBy_both {value : ValueForm} (octets : fields.get? "value-base64" ≠ none)
    (inner : fields.get? "value-json" ≠ none) : ¬ value.HeldBy fields := by
  rintro (⟨nothing, -⟩ | ⟨-, -, nothing⟩ | ⟨nothing, -⟩)
  · exact octets nothing
  · exact inner nothing
  · exact octets nothing

theorem readValue_both (octets : fields.get? "value-base64" ≠ none)
    (inner : fields.get? "value-json" ≠ none) (oid : String) :
    readValue oid fields = .error (.conflictingValue oid .bothForms) := by
  obtain ⟨text, there⟩ := Option.ne_none_iff_exists'.1 octets
  obtain ⟨value, here⟩ := Option.ne_none_iff_exists'.1 inner
  simp only [readValue, there, here]

/-- The values that are read as control objects are exactly those that the grammar describes, and
octets are those that the text of their field spells. An object that gives a value in both forms
is never read; where its other fields are well formed, it is refused for that, before the policy
or any field that is not known. -/
theorem accepts_exactly_described (policy : ValuePolicy) (p : Strictness) (v : Json) :
    (∀ c, ofJson policy p v = .ok c ↔ Describes policy p v c) ∧
    (∀ c s, Describes policy p v c → c.value = .raw s →
      ∃ text, v.field? "value-base64" = some (.string text) ∧
      Text.trim text.toList = Text.Base64.encode s) ∧
    (v.field? "value-base64" ≠ none → v.field? "value-json" ≠ none →
      (∀ c, ofJson policy p v ≠ .ok c) ∧
      ∀ oid name critical, oid ≠ "" → v.field? "oid" = some (.string oid) →
        v.field? "control-name" = Option.map .string name →
        v.field? "criticality" = some (.bool critical) →
        ofJson policy p v = .error (.conflictingValue oid .bothForms)) := by
  refine ⟨fun c => ofJson_ok_iff, ?_, fun octets inner => ⟨fun c read => ?_, ?_⟩⟩
  · rintro c s ⟨held, -, -⟩ raw
    have value := held.value
    rw [raw] at value
    cases value with
    | raw there spelled _ => exact ⟨_, there, Fields.ofBase64_ok_iff.1 spelled⟩
  · obtain ⟨held, -, -⟩ := ofJson_ok_iff.1 read
    exact not_heldBy_both octets inner held.value
  · intro oid name critical named there label criticality
    cases v with
    | object fields =>
      rw [ofJson, ofFields, readOid_ok_iff.2 ⟨named, there⟩, ok_bind, Fields.string?_ok_iff.2 label,
        ok_bind, readCriticality_ok_iff.2 criticality, ok_bind, readValue_both octets inner,
        error_bind]
    | _ => cases there

def spacedValue : Fields :=
  [("value-base64", .string "\tAQI= "), ("criticality", .bool true), ("oid", .string "1.2.3")]

def bothForms : Fields :=
  [("note", .null), ("oid", .string "1.2.3"), ("value-base64", .bool true), ("value-json", .null),
    ("criticality", .bool false)]

theorem spaced_value_described :
    Describes .required ⟨true, true⟩ (.object spacedValue) ⟨"1.2.3", none, true, .raw [1, 2]⟩ ∧
    ofJson .required ⟨true, true⟩ (.object spacedValue) = .ok ⟨"1.2.3", none, true, .raw [1, 2]⟩ ∧
    (∃ text, Json.field? "value-base64" (.object spacedValue) = some (.string text) ∧
      Text.trim text.toList = Text.Base64.encode [1, 2]) ∧
    (∀ c, ofJson .forbidden ⟨true, true⟩ (.object bothForms) ≠ .ok c) ∧
    ofJson .forbidden ⟨true, true⟩ (.object bothForms) =
      .error (.conflictingValue "1.2.3" .bothForms) := by
  have held : (ControlObject.mk "1.2.3" none true (.raw [1, 2])).HeldBy spacedValue :=
    ⟨by decide, rfl, rfl, rfl, .raw rfl rfl rfl⟩
  have described : Describes .required ⟨true, true⟩ (.object spacedValue) ⟨"1.2.3", none, true,
      .raw [1, 2]⟩ :=
    .intro held nofun fun _ => by decide
  have accepted := accepts_exactly_described .required ⟨true, true⟩ (.object spacedValue)
  have refused :=
    (accepts_exactly_described .forbidden ⟨true, true⟩ (.object bothForms)).2.2 nofun nofun
  exact ⟨described, (accepted.1 _).2 described, accepted.2.1 _ _ described rfl, refused.1,
    refused.2 "1.2.3" none false (by decide) rfl rfl rfl⟩

/-- A control object is read back from what is written for it, and nothing else is, if and only if
it has an OID and the policy admits its value; strictness plays no part. So an object that is read
once, in whatever form, is read again from what is written for it. -/
theorem written_object_read_iff (policy : ValuePolicy) (c : ControlObject) :
    (∀ p d, ofJson policy p c.toJson = .ok d ↔ d = c ∧ c.oid ≠ "" ∧ policy.Admits c.value) ∧
    (∀ v p, ofJson policy p v = .ok c → ∀ q, ofJson policy q c.toJson = .ok c) := by
  have again (named : c.oid ≠ "") (admitted : policy.Admits c.value) (q : Strictness) :
      ofJson policy q c.toJson = .ok c := ofJson_toJson named (ValueForm.check_ok_iff.2 admitted) q
  refine ⟨fun p d => ⟨fun read => ?_, ?_⟩, fun v p read q => ?_⟩
  · have held := heldBy_of_ofJson read
    have same : c.oid = d.oid := Json.string.inj (Option.some.inj held.oid)
    have named : c.oid ≠ "" := by
      rw [same]
      exact held.named
    rw [ofJson_toJson_check named] at read
    obtain ⟨_, checked, last⟩ := bind_ok_iff.1 read
    cases last
    exact ⟨rfl, named, ValueForm.check_ok_iff.1 checked⟩
  · rintro ⟨rfl, named, admitted⟩
    exact again named admitted p
  · obtain ⟨held, admitted, -⟩ := ofJson_ok_iff.1 read
    exact again held.named admitted q

theorem labelled_object_read_again :
    ofJson .optional .lenient (.object (("note", .null) :: spacedValue)) =
      .ok ⟨"1.2.3", none, true, .raw [1, 2]⟩ ∧
    ofJson .optional ⟨true, true⟩ (toJson ⟨"1.2.3", none, true, .raw [1, 2]⟩) =
      .ok ⟨"1.2.3", none, true, .raw [1, 2]⟩ ∧
    ofJson .required ⟨true, true⟩ (toJson ⟨"1.2.3", some "", false,
      .structured [("a", .array [.object []])]⟩) =
      .ok ⟨"1.2.3", some "", false, .structured [("a", .array [.object []])]⟩ := by
  have read : ofJson .optional .lenient (.object (("note", .null) :: spacedValue)) =
      .ok ⟨"1.2.3", none, true, .raw [1, 2]⟩ := rfl
  exact ⟨read, (written_object_read_iff .optional _).2 _ .lenient read ⟨true, true⟩,
    ((written_object_read_iff .required _).1 ⟨true, true⟩ _).2 ⟨rfl, by decide, nofun⟩⟩

end ControlObject
end Ldap
