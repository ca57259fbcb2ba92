import Ldap.Proofs.Registry.RawValues

/-! Strictness. What is decoded under one strictness is decoded to the same control under another
or refused for a field that is not known; nothing else depends on strictness. -/
namespace Ldap
open Json

/-- At least as strict, in both places. -/
instance : LE Strictness := ⟨fun p q => (p.value → q.value) ∧ (p.topLevel → q.topLevel)⟩

def Request.Kind.fieldNames : Kind → List String
  | .getAuthorizationEntry => GetAuthorizationEntry.fieldNames
  | .sync => SyncRequest.fieldNames
  | _ => []

namespace Json.Fields

def stray? (known : List String) (fields : Fields) : Option String :=
  fields.names.find? fun name => !known.contains name

end Json.Fields

@[simp] theorem Json.Fields.stray?_eq_none_iff {known : List String} {fields : Fields} :
    fields.stray? known = none ↔ ∀ name ∈ fields.names, name ∈ known := by
  simp [stray?]

def refuse : Option DecodeError → Except DecodeError Unit
  | none => .ok ()
  | some e => .error e

@[simp] theorem bind_refuse_none {α : Type} (x : Except DecodeError α) :
    (do let a ← x; refuse none; return a) = x := by
  cases x <;> rfl

theorem Json.Fields.refuseUnknown_eq (location : Location) (known : List String) (fields : Fields) :
    fields.refuseUnknown location known =
      refuse ((fields.stray? known).map (.unrecognizedField · location)) := by
  rw [refuseUnknown, stray?, ← List.head?_filter, ← unknown]
  cases fields.unknown known <;> rfl

namespace Strictness

def objectFault? (p : Strictness) : Json → Option DecodeError
  | .object fields =>
    if p.topLevel
      then (Fields.stray? ControlObject.fieldNames fields).map (.unrecognizedField · .controlObject)
    else none
  | _ => none

def fieldsFault? (p : Strictness) (known : List String) (fields : Fields) : Option DecodeError :=
  if p.value then (fields.stray? known).map (.unrecognizedField · .structuredValue) else none

def valueFault? (p : Strictness) (known : List String) (v : Json) : Option DecodeError :=
  match v.field? "value-json" with
  | some (.object fields) => p.fieldsFault? known fields
  | _ => none

/-- The fault that strict reading finds in an object where lenient reading finds none: the first
field that is none of a control object, if these are looked at, or else the first field of its
structured value outside `known`. -/
def fault? (p : Strictness) (known : List String) (v : Json) : Option DecodeError :=
  (p.objectFault? v).or (p.valueFault? known v)

theorem checkValue_eq (p : Strictness) (known : List String) (fields : Fields) :
    p.checkValue known fields = refuse (p.fieldsFault? known fields) := by
  rw [checkValue, fieldsFault?, Fields.refuseUnknown_eq]
  split <;> rfl

section
variable {p q : Strictness} {known : List String} {v : Json}

theorem objectFault?_congr (same : p.topLevel = q.topLevel) :
    p.objectFault? v = q.objectFault? v := by
  cases v with
  | object fields => rw [objectFault?, objectFault?, same]
  | _ => rfl

theorem objectFault?_mono (le : p ≤ q) {e : DecodeError} (found : p.objectFault? v = some e) :
    q.objectFault? v = some e := by
  cases v with
  | object fields =>
    rw [objectFault?] at found ⊢
    split at found
    · rename_i top
      rwa [if_pos (le.2 top)]
    · cases found
  | _ => cases found

theorem valueFault?_mono (le : p ≤ q) {e : DecodeError} (found : p.valueFault? known v = some e) :
    q.valueFault? known v = some e := by
  unfold valueFault? at found ⊢
  split at found
  · rw [fieldsFault?] at found ⊢
    split at found
    · rename_i value
      rwa [if_pos (le.1 value)]
    · cases found
  · cases found

theorem fault?_none_of_le (le : p ≤ q) (clean : q.fault? known v = none) :
    p.fault? known v = none := by
  rw [fault?, Option.or_eq_none_iff] at clean ⊢
  refine ⟨Option.eq_none_iff_forall_ne_some.2 fun e found => ?_,
    Option.eq_none_iff_forall_ne_some.2 fun e found => ?_⟩
  · have stricter := objectFault?_mono le found
    rw [clean.1] at stricter
    cases stricter
  · have stricter := valueFault?_mono le found
    rw [clean.2] at stricter
    cases stricter

end

@[simp] theorem lenient_fieldsFault? (known : List String) (fields : Fields) :
    lenient.fieldsFault? known fields = none := rfl

end Strictness

namespace ControlObject

theorem ofJson_eq_refuse (policy : ValuePolicy) (p : Strictness) (v : Json) :
    ofJson policy p v =
      (do let c ← ofJson policy .lenient v; refuse (p.objectFault? v); return c) := by
  cases v with
  | object fields =>
    simp only [ofJson, ofFields, Strictness.objectFault?, Fields.refuseUnknown_eq, bind_assoc]
    refine bind_congr fun oid => bind_congr fun name => bind_congr fun critical =>
      bind_congr fun value =>
      bind_congr fun _ => ?_
    cases p.topLevel <;> rfl
  | _ => rfl

theorem structured_iff_of_held {fields inner : Fields} {value : ValueForm}
    (held : value.HeldBy fields) :
    value = .structured inner ↔ fields.get? "value-json" = some (.object inner) := by
  cases held with
  | absent _ nothing => simp [nothing]
  | raw _ _ nothing => simp [nothing]
  | structured _ there => simp [there]

theorem ofJson_structured_iff {policy : ValuePolicy} {p : Strictness} {v : Json} {c : ControlObject}
    {inner : Fields} (h : ofJson policy p v = .ok c) :
    c.value = .structured inner ↔ v.field? "value-json" = some (.object inner) := by
  cases v with
  | object fields => exact structured_iff_of_held (heldBy_of_ofJson h).value
  | _ => cases h

end ControlObject

theorem Strictness.valueFault?_of_read {policy : ValuePolicy} {q : Strictness} {v : Json}
    {c : ControlObject} (read : ControlObject.ofJson policy q v = .ok c) (p : Strictness)
    (known : List String) :
    p.valueFault? known v =
      match c.value with
      | .structured fields => p.fieldsFault? known fields
      | _ => none := by
  have there (fields : Fields) : c.value = .structured fields ↔
      v.field? "value-json" = some (.object fields) :=
    ControlObject.ofJson_structured_iff read
  unfold valueFault?
  split
  · rename_i fields found
    rw [(there fields).2 found]
  · rename_i nowhere
    split
    · rename_i fields found
      exact absurd ((there fields).1 found) (nowhere fields)
    · rfl

theorem GetAuthorizationEntry.ofFields_eq_refuse (p : Strictness) (fields : Fields) :
    ofFields p fields = (do
      let r ← ofFields .lenient fields
      refuse (p.fieldsFault? fieldNames fields)
      return r) := by
  simp only [ofFields, Strictness.checkValue_eq, Strictness.lenient_fieldsFault?, bind_assoc]
  rfl

theorem SyncRequest.ofFields_eq_refuse (p : Strictness) (fields : Fields) :
    ofFields p fields = (do
      let r ← ofFields .lenient fields
      refuse (p.fieldsFault? fieldNames fields)
      return r) := by
  unfold ofFields
  cases fields.string? "mode" with
  | error e => rfl
  | ok name =>
    cases name with
    | none => rfl
    | some name =>
      simp only [Strictness.checkValue_eq, Strictness.lenient_fieldsFault?, bind_assoc, ok_bind]
      rfl

namespace Request

theorem ofFields_eq_refuse (kind : Kind) (p : Strictness) (fields : Fields) :
    ofFields p fields kind = (do
      let q ← ofFields .lenient fields kind
      refuse (p.fieldsFault? kind.fieldNames fields)
      return q) := by
  cases kind with
  | getAuthorizationEntry =>
    rw [ofFields, GetAuthorizationEntry.ofFields_eq_refuse, ofFields, Kind.fieldNames]
    cases GetAuthorizationEntry.ofFields .lenient fields with
    | error e => rfl
    | ok r => cases p.fieldsFault? GetAuthorizationEntry.fieldNames fields <;> rfl
  | suppressReferentialIntegrity => rfl
  | replicationRepair => rfl
  | sync =>
    rw [ofFields, SyncRequest.ofFields_eq_refuse, ofFields, Kind.fieldNames]
    cases SyncRequest.ofFields .lenient fields with
    | error e => rfl
    | ok r => cases p.fieldsFault? SyncRequest.fieldNames fields <;> rfl

theorem ofForm_eq_refuse {policy : ValuePolicy} {v : Json} {c : ControlObject}
    (read : ControlObject.ofJson policy .lenient v = .ok c) (kind : Kind) (p : Strictness) :
    ofForm kind p c.value = (do
      let q ← ofForm kind .lenient c.value
      refuse (p.valueFault? kind.fieldNames v)
      return q) := by
  rw [Strictness.valueFault?_of_read read]
  cases c.value with
  | structured fields => exact ofFields_eq_refuse kind p fields
  | absent => exact (bind_refuse_none _).symm
  | raw s => exact (bind_refuse_none _).symm

end Request

/-- Reading in which strictness does nothing but refuse: an object and its value are read in one
way under every strictness, and each of them is looked through for unknown fields once it was
read. -/
def OnlyRefuses {α : Type} (known : List String) (v : Json)
    (read : Strictness → Except DecodeError α) : Prop :=
  ∃ (object : Except DecodeError ControlObject) (value : ControlObject → Except DecodeError α), ∀ p,
    read p = (do
    let c ← object
    refuse (p.objectFault? v)
    let a ← value c
    refuse (p.valueFault? known v)
    return a)

namespace OnlyRefuses
variable {α β : Type} {known : List String} {v : Json} {read : Strictness → Except DecodeError α}

theorem error (e : DecodeError) : OnlyRefuses known v fun _ => (.error e : Except DecodeError α) :=
  ⟨.error e, fun _ => .error e, fun _ => rfl⟩

theorem map (h : OnlyRefuses known v read) (f : α → β) :
    OnlyRefuses known v fun p => f <$> read p := by
  obtain ⟨object, value, h⟩ := h
  refine ⟨object, fun c => f <$> value c, fun p => ?_⟩
  dsimp only
  rw [h]
  simp only [map_eq_pure_bind, bind_assoc, pure_bind]

theorem request (kind : Request.Kind) (v : Json) :
    OnlyRefuses kind.fieldNames v fun p => RequestControl.ofJson kind p v := by
  refine ⟨ControlObject.ofJson kind.policy .lenient v, fun c => do
    c.expectOid kind.oid
    return ⟨c.critical, ← Request.ofForm kind .lenient c.value⟩, fun p => ?_⟩
  dsimp only
  rw [RequestControl.ofJson, ControlObject.ofJson_eq_refuse]
  cases read : ControlObject.ofJson kind.policy .lenient v with
  | error e => rfl
  | ok c =>
    simp only [ok_bind, bind_assoc, pure_bind, Request.ofForm_eq_refuse read kind p]

theorem envelope (f : Envelope → Except DecodeError α) :
    OnlyRefuses known v fun p => Envelope.ofJson p v >>= f := by
  refine ⟨ControlObject.ofJson .optional .lenient v, fun c => Envelope.ofObject c >>= f,
    fun p => ?_⟩
  dsimp only
  rw [Envelope.ofJson, ControlObject.ofJson_eq_refuse]
  cases read : ControlObject.ofJson .optional .lenient v with
  | error e => rfl
  | ok c =>
    rw [Strictness.valueFault?_of_read read, ok_bind]
    cases shape : c.value with
    | structured fields =>
      have refused : Envelope.ofObject c =
          .error (.conflictingValue c.oid .structuredWithoutDecoder) := by
        simp only [Envelope.ofObject, shape]
      simp only [ok_bind, bind_assoc, pure_bind, refused, error_bind]
    | absent => simp only [ok_bind, bind_assoc, pure_bind, bind_refuse_none]
    | raw s => simp only [ok_bind, bind_assoc, pure_bind, bind_refuse_none]

theorem eq_of_ok (h : OnlyRefuses known v read) {p : Strictness} {a : α} (accepted : read p = .ok a)
    (q : Strictness) : read q = (do refuse (q.fault? known v); return a) := by
  obtain ⟨object, value, h⟩ := h
  rw [h] at accepted
  obtain ⟨c, object_ok, others⟩ := bind_ok_iff.1 accepted
  obtain ⟨_, _, others⟩ := bind_ok_iff.1 others
  obtain ⟨b, value_ok, others⟩ := bind_ok_iff.1 others
  obtain ⟨_, _, last⟩ := bind_ok_iff.1 others
  cases last
  rw [h, object_ok, ok_bind, Strictness.fault?]
  cases q.objectFault? v with
  | some e => rfl
  | none =>
    change (do let a ← value c; refuse (q.valueFault? known v); return a) = _
    rw [value_ok, ok_bind]
    rfl

theorem ok_of_le (h : OnlyRefuses known v read) {p q : Strictness} (le : p ≤ q) {a : α}
    (accepted : read q = .ok a) :
    read p = .ok a := by
  have clean : q.fault? known v = none := by
    have again := h.eq_of_ok accepted q
    rw [accepted] at again
    cases fault : q.fault? known v with
    | none => rfl
    | some e =>
      rw [fault] at again
      cases again
  rw [h.eq_of_ok accepted p, Strictness.fault?_none_of_le le clean]
  rfl

theorem error_of_le (h : OnlyRefuses known v read) {p q : Strictness} (le : p ≤ q)
    (same : p.topLevel = q.topLevel) {e : DecodeError} (failed : read p = .error e) :
    read q = .error e := by
  obtain ⟨object, value, h⟩ := h
  rw [h] at failed ⊢
  rcases bind_error_iff.1 failed with failed | ⟨c, object_ok, failed⟩
  · simp [failed]
  · rw [object_ok, ok_bind, ← Strictness.objectFault?_congr same]
    rcases bind_error_iff.1 failed with failed | ⟨_, clean, failed⟩
    · simp [failed]
    · rw [clean, ok_bind]
      rcases bind_error_iff.1 failed with failed | ⟨a, value_ok, failed⟩
      · simp [failed]
      · rw [value_ok, ok_bind]
        -- Only the fields of the value are left to be refused, and those that `p` refuses `q`
        -- refuses as well.
        cases found : p.valueFault? known v with
        | none =>
          rw [found] at failed
          cases failed
        | some fault =>
          rw [found] at failed
          rw [Strictness.valueFault?_mono le found]
          exact failed

end OnlyRefuses

def Decoder.fieldNames : Decoder → List String
  | .ofKind kind => kind.fieldNames
  | _ => []

theorem Decoder.decodeJson_onlyRefuses {d : Decoder} (derived : ∀ f g, d ≠ .ofFunctions f g)
    {v : Json} {oid : String} (there : v.field? "oid" = some (.string oid)) :
    OnlyRefuses d.fieldNames v fun p => d.decodeJson p v := by
  cases d with
  | ofKind kind =>
    simp only [decodeJson_ofKind there]
    by_cases own : oid = kind.oid
    · simp only [if_pos own]
      exact (OnlyRefuses.request kind v).map Control.request
    · simp only [if_neg own]
      exact OnlyRefuses.error _
  | ofFunction f => exact OnlyRefuses.envelope f
  | ofFunctions f g => exact absurd rfl (derived f g)

namespace Registry

def fieldNames (v : Json) (r : Registry) : List String :=
  match v.field? "oid" with
  | some (.string oid) =>
    match r.decoder? oid with
    | some d => d.fieldNames
    | none => []
  | _ => []

theorem decodeJson_onlyRefuses {r : Registry} (derived : r.NoOwnForms) (v : Json) :
    OnlyRefuses (r.fieldNames v) v fun p => (r.decodeJson p v).1 := by
  have generic : OnlyRefuses [] v fun p => Decoded.passedThrough <$> Envelope.ofJson p v := by
    have read : OnlyRefuses [] v fun p => Envelope.ofJson p v >>= pure := .envelope pure
    simp only [bind_pure] at read
    exact read.map Decoded.passedThrough
  simp only [decodeJson_fst, fieldNames]
  cases there : v.field? "oid" with
  | none => exact generic
  | some field =>
    cases field with
    | string oid =>
      dsimp only
      cases found : r.decoder? oid with
      | none => exact generic
      | some d =>
        have derived : ∀ f g, d ≠ .ofFunctions f g := by
          rintro f g rfl
          exact derived oid f g found
        exact (Decoder.decodeJson_onlyRefuses derived there).map Decoded.typed
    | _ => exact generic

/-- Strictness filters and does no more. What is decoded under a strictness is decoded to the same
control under a lesser one, and under another is refused exactly for the first field in document
order that is none of a control object, where these are looked at, or else for the first field of
the structured value that its type does not have. Strictness about the value alone hides no
fault. -/
theorem strictness_only_filters {r : Registry} (derived : r.NoOwnForms) (v : Json)
    {p q : Strictness} (le : p ≤ q) :
    (∀ d, (r.decodeJson q v).1 = .ok d → (r.decodeJson p v).1 = .ok d) ∧
    (∀ d, (r.decodeJson p v).1 = .ok d → (r.decodeJson q v).1 =
      match q.fault? (r.fieldNames v) v with
      | none => .ok d
      | some e => .error e) ∧
    (p.topLevel = q.topLevel → ∀ e, (r.decodeJson p v).1 = .error e →
      (r.decodeJson q v).1 = .error e) := by
  have filtered := decodeJson_onlyRefuses derived v
  refine ⟨fun d accepted => filtered.ok_of_le le accepted, fun d accepted => ?_,
    fun same e failed => filtered.error_of_le le same failed⟩
  have refused := filtered.eq_of_ok accepted q
  rw [refused]
  cases q.fault? (r.fieldNames v) v <;> rfl

def strayFields : Json :=
  .object [("note", .null), ("oid", .string SyncRequest.oid), ("criticality", .bool false),
    ("value-json", .object [("mode", .string "refresh-only"), ("size", .null), ("limit", .null)])]

theorem stray_fields_refused :
    (standard.decodeJson .lenient strayFields).1 = .ok (.typed (.request ⟨false, .sync {}⟩)) ∧
    (standard.decodeJson ⟨true, false⟩ strayFields).1 =
      .error (.unrecognizedField "size" .structuredValue) ∧
    (standard.decodeJson ⟨true, true⟩ strayFields).1 =
      .error (.unrecognizedField "note" .controlObject) := by
  have derived := NoOwnForms.of_onlyKinds OnlyKinds.standard
  have lenient : (standard.decodeJson .lenient strayFields).1 =
      .ok (.typed (.request ⟨false, .sync {}⟩)) := by
    decide +kernel
  have inValue : (Strictness.mk true false).fault? (standard.fieldNames strayFields) strayFields =
      some (.unrecognizedField "size" .structuredValue) := by decide +kernel
  have atTop : (Strictness.mk true true).fault? (standard.fieldNames strayFields) strayFields =
      some (.unrecognizedField "note" .controlObject) := by decide +kernel
  have value : Strictness.lenient ≤ ⟨true, false⟩ := ⟨fun _ => rfl, id⟩
  have both : Strictness.lenient ≤ ⟨true, true⟩ := ⟨fun _ => rfl, fun _ => rfl⟩
  refine ⟨lenient, ?_, ?_⟩
  · rw [(strictness_only_filters derived strayFields value).2.1 _ lenient, inValue]
  · rw [(strictness_only_filters derived strayFields both).2.1 _ lenient, atTop]

end Registry
end Ldap
