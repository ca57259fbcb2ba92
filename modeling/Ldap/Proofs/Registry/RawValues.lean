import Ldap.Proofs.Registry.Objects

/-! The JSON object of an envelope, its value in base64, against the envelope itself. A registry
reads the two by separate paths, each with an order of checks of its own; they differ in which
fault they name first, and only for requests under a foreign OID and for synchronization requests
without a value. -/
namespace Ldap

namespace Request

@[simp] theorem ofForm_ofValue (kind : Kind) (p : Strictness) (v : Option Octets) :
    ofForm kind p (.ofValue v) = ofValue kind v := by
  cases v <;> rfl

theorem check_ofValue {kind : Kind} {v : Option Octets} (carried : kind = .sync → v ≠ none) :
    (do (ValueForm.ofValue v).check kind.oid kind.policy; ofValue kind v) = ofValue kind v := by
  cases kind with
  | getAuthorizationEntry => cases v <;> rfl
  | suppressReferentialIntegrity => cases v <;> rfl
  | replicationRepair => cases v <;> rfl
  | sync =>
    cases v with
    | none => exact absurd rfl (carried rfl)
    | some s => rfl

end Request

namespace RequestControl

theorem ofEnvelope_foreign {kind : Request.Kind} {c : Envelope} (foreign : kind.oid ≠ c.oid) :
    ofEnvelope kind c = .error (.malformed c.oid (.foreignOid kind.oid c.oid)) := by
  have refused : c.expectOid kind.oid = .error (.malformed c.oid (.foreignOid kind.oid c.oid)) :=
    if_neg (Ne.symm foreign)
  simp [ofEnvelope, refused]

theorem ofJson_toJson_own {kind : Request.Kind} {c : Envelope} (own : c.oid = kind.oid)
    (p : Strictness) :
    ofJson kind p c.toJson = (do
      (ValueForm.ofValue c.value).check kind.oid kind.policy
      return ⟨c.critical, ← Request.ofValue kind c.value⟩) := by
  have named : c.toObject.oid ≠ "" := by
    change c.oid ≠ ""
    rw [own]
    exact kind.oid_ne_empty
  have expected : c.toObject.expectOid kind.oid = .ok () := if_pos own
  have value : c.toObject.value.check c.toObject.oid kind.policy =
      (ValueForm.ofValue c.value).check kind.oid kind.policy := by
    rw [← own]
    rfl
  rw [ofJson, Envelope.toJson, ControlObject.ofJson_toJson_check named, value]
  cases (ValueForm.ofValue c.value).check kind.oid kind.policy with
  | error e => rfl
  | ok _ =>
    change (do c.toObject.expectOid kind.oid; _) = _
    rw [expected, ok_bind, ok_bind]
    exact congrArg (· >>= _) (Request.ofForm_ofValue kind p c.value)

theorem ofJson_toJson_eq_ofEnvelope {kind : Request.Kind} {c : Envelope} (own : c.oid = kind.oid)
    (carried : kind = .sync → c.value ≠ none) (p : Strictness) :
    ofJson kind p c.toJson = ofEnvelope kind c := by
  rw [ofJson_toJson_own own, ofEnvelope_own own, ← Request.check_ofValue carried]
  cases (ValueForm.ofValue c.value).check kind.oid kind.policy <;> rfl

end RequestControl

namespace Decoder

theorem decodeJson_ofKind_own {kind : Request.Kind} {c : Envelope} (own : c.oid = kind.oid)
    (carried : kind = .sync → c.value ≠ none) (p : Strictness) :
    (ofKind kind).decodeJson p c.toJson = (ofKind kind).decode c := by
  have there : c.toJson.field? "oid" = some (.string c.oid) := rfl
  rw [decodeJson_ofKind there, if_pos own, RequestControl.ofJson_toJson_eq_ofEnvelope own carried,
    decode]

theorem decodeJson_ofKind_foreign {kind : Request.Kind} {c : Envelope} (foreign : kind.oid ≠ c.oid)
    (p : Strictness) :
    (ofKind kind).decodeJson p c.toJson = .error (.typeMismatch "oid" .typeOid) :=
  if_neg (Ne.symm foreign)

theorem decode_ofKind_foreign {kind : Request.Kind} {c : Envelope} (foreign : kind.oid ≠ c.oid) :
    (ofKind kind).decode c = .error (.malformed c.oid (.foreignOid kind.oid c.oid)) := by
  rw [decode, RequestControl.ofEnvelope_foreign foreign]
  rfl

theorem decodeJson_sync_absent {c : Envelope} (own : c.oid = Request.Kind.sync.oid)
    (absent : c.value = none) (p : Strictness) :
    (ofKind .sync).decodeJson p c.toJson = .error (.conflictingValue c.oid .noForm) := by
  have there : c.toJson.field? "oid" = some (.string c.oid) := rfl
  rw [decodeJson_ofKind there, if_pos own, RequestControl.ofJson_toJson_own own, absent, own]
  rfl

theorem decode_sync_absent {c : Envelope} (own : c.oid = Request.Kind.sync.oid)
    (absent : c.value = none) :
    (ofKind .sync).decode c = .error (.missingValue c.oid) := by
  rw [decode, RequestControl.ofEnvelope_own own, absent, own]
  rfl

theorem decodeJson_ofFunction {f : Envelope → Except DecodeError Control} {c : Envelope}
    (named : c.oid ≠ "") (p : Strictness) :
    (ofFunction f).decodeJson p c.toJson = (ofFunction f).decode c := by
  simp [decodeJson, Envelope.ofJson_toJson named, decode]

end Decoder

namespace Registry

/-- No decoder but those of the request kinds and functions of the envelope, under whatever OIDs:
objects are read in the ways that the library has for them. -/
def NoOwnForms (r : Registry) : Prop := ∀ oid f g, r.decoder? oid ≠ some (.ofFunctions f g)

theorem NoOwnForms.of_onlyKinds {r : Registry} (h : r.OnlyKinds) : r.NoOwnForms := by
  intro oid f g found
  obtain ⟨kind, same⟩ := h oid _ found
  cases same

theorem NoOwnForms.register {r : Registry} (h : r.NoOwnForms) (oid : String) {d : Decoder}
    (derived : ∀ f g, d ≠ .ofFunctions f g) : (r.register oid d).NoOwnForms := by
  intro other f g found
  rw [decoder?_register] at found
  split at found
  · exact derived f g (Option.some.inj found)
  · exact h other f g found

theorem decodeJson_toJson_unknown {r : Registry} {c : Envelope} (named : c.oid ≠ "")
    (unknown : r.decoder? c.oid = none) (p : Strictness) :
    r.decodeJson p c.toJson = r.decode c := by
  have there : c.toJson.field? "oid" = some (.string c.oid) := rfl
  simp only [decodeJson, decode, there, unknown, Envelope.ofJson_toJson named]

theorem decodeJson_toJson_of_decoder {r : Registry} {c : Envelope} {d : Decoder}
    (found : r.decoder? c.oid = some d) {p : Strictness}
    (agree : d.decodeJson p c.toJson = d.decode c) :
    r.decodeJson p c.toJson = r.decode c := by
  have there : c.toJson.field? "oid" = some (.string c.oid) := rfl
  rw [decodeJson_eq_record there found, agree, decode_eq_record found]

/-- The JSON object of an envelope, which holds the value in base64, is decoded as the envelope
is, under every strictness: to the same control or fault, with the same counters afterwards. A
control whose OID has no decoder passes both ways as it is. In two cases, where both ways fail,
the faults differ: a decoder under a foreign OID blames the field `oid` of an object but the
octets of an envelope, and a synchronization request without a value is missed by the policy of an
object before its reader would miss it. -/
theorem raw_object_decodes_like_envelope {r : Registry} (derived : r.NoOwnForms) {c : Envelope}
    (named : c.oid ≠ "") (p : Strictness) :
    (r.decodeJson p c.toJson = r.decode c ∨
      (∃ kind, r.decoder? c.oid = some (.ofKind kind) ∧ kind.oid ≠ c.oid) ∨
      (r.decoder? c.oid = some (.ofKind .sync) ∧ c.oid = SyncRequest.oid ∧ c.value = none)) ∧
    (∀ kind, r.decoder? c.oid = some (.ofKind kind) → kind.oid ≠ c.oid →
      (r.decodeJson p c.toJson).1 = .error (.typeMismatch "oid" .typeOid) ∧
      (r.decode c).1 = .error (.malformed c.oid (.foreignOid kind.oid c.oid))) ∧
    (r.decoder? c.oid = some (.ofKind .sync) → c.oid = SyncRequest.oid → c.value = none →
      (r.decodeJson p c.toJson).1 = .error (.conflictingValue c.oid .noForm) ∧
      (r.decode c).1 = .error (.missingValue c.oid)) ∧
    (r.decoder? c.oid = none →
      (r.decodeJson p c.toJson).1 = .ok (.passedThrough c) ∧
      (r.decode c).1 = .ok (.passedThrough c)) := by
  have there : c.toJson.field? "oid" = some (.string c.oid) := rfl
  refine ⟨?_, fun kind found foreign => ?_, fun found own absent => ?_, fun unknown => ?_⟩
  · cases found : r.decoder? c.oid with
    | none => exact .inl (decodeJson_toJson_unknown named found p)
    | some d =>
      cases d with
      | ofFunction f =>
        exact .inl (decodeJson_toJson_of_decoder found (Decoder.decodeJson_ofFunction named p))
      | ofFunctions f g => exact absurd found (derived c.oid f g)
      | ofKind kind =>
        by_cases own : c.oid = kind.oid
        · by_cases absent : kind = .sync ∧ c.value = none
          · obtain ⟨rfl, absent⟩ := absent
            exact .inr (.inr ⟨rfl, own, absent⟩)
          · have carried : kind = .sync → c.value ≠ none := fun sync none => absent ⟨sync, none⟩
            exact .inl
              (decodeJson_toJson_of_decoder found (Decoder.decodeJson_ofKind_own own carried p))
        · exact .inr (.inl ⟨kind, rfl, Ne.symm own⟩)
  · rw [decodeJson_eq_record there found, decode_eq_record found,
      Decoder.decodeJson_ofKind_foreign foreign, Decoder.decode_ofKind_foreign foreign]
    exact ⟨rfl, rfl⟩
  · rw [decodeJson_eq_record there found, decode_eq_record found,
      Decoder.decodeJson_sync_absent own absent, Decoder.decode_sync_absent own absent]
    exact ⟨rfl, rfl⟩
  · rw [decodeJson_toJson_unknown named unknown, decode_fst, unknown]
    exact ⟨rfl, rfl⟩

def mixed : Registry :=
  (standard.register "1.2" (.ofKind .sync)).register "1.3" (.ofFunction fun c => .ok (.plain c))

def twoOctets : Envelope := ⟨"1.3", true, some [0xFF, 0x00]⟩

theorem mixed_decodes_raw_objects :
    mixed.decodeJson ⟨true, true⟩ twoOctets.toJson = mixed.decode twoOctets ∧
    (mixed.decode twoOctets).1 = .ok (.typed (.plain twoOctets)) ∧
    (mixed.decodeJson .lenient (Envelope.mk "1.2" false none).toJson).1 =
      .error (.typeMismatch "oid" .typeOid) ∧
    (mixed.decode ⟨"1.2", false, none⟩).1 =
      .error (.malformed "1.2" (.foreignOid SyncRequest.oid "1.2")) ∧
    (mixed.decodeJson .lenient (Envelope.mk SyncRequest.oid false none).toJson).1 =
      .error (.conflictingValue SyncRequest.oid .noForm) ∧
    (mixed.decode ⟨SyncRequest.oid, false, none⟩).1 = .error (.missingValue SyncRequest.oid) := by
  have derived : mixed.NoOwnForms :=
    ((NoOwnForms.of_onlyKinds OnlyKinds.standard).register "1.2" (by simp)).register "1.3" (by simp)
  have function : mixed.decoder? twoOctets.oid = some (.ofFunction fun c => .ok (.plain c)) := by
    simp [mixed, twoOctets]
  have foreign : mixed.decoder? "1.2" = some (.ofKind .sync) := by
    simp [mixed]
  have sync : mixed.decoder? SyncRequest.oid = some (.ofKind .sync) := by
    rw [mixed, decoder?_register, if_neg (by decide), decoder?_register, if_neg (by decide)]
    exact decoder?_registerAll empty .sync
  have same : mixed.decodeJson ⟨true, true⟩ twoOctets.toJson = mixed.decode twoOctets := by
    rcases (raw_object_decodes_like_envelope derived (by decide : twoOctets.oid ≠ "")
      ⟨true, true⟩).1 with
      same | ⟨kind, other, different⟩ | ⟨other, own, absent⟩
    · exact same
    · rw [function] at other
      cases other
    · rw [function] at other
      cases other
  have decoded : (mixed.decode twoOctets).1 = .ok (.typed (.plain twoOctets)) := by
    rw [decode_fst, function]
    rfl
  have faults :=
    (raw_object_decodes_like_envelope derived (c := ⟨"1.2", false, none⟩) (by decide) .lenient).2.1
    .sync foreign (by decide)
  have absent :=
    (raw_object_decodes_like_envelope derived (c := ⟨SyncRequest.oid, false, none⟩) (by decide)
    .lenient).2.2.1 sync rfl rfl
  exact ⟨same, decoded, faults.1, faults.2, absent.1, absent.2⟩

end Registry
end Ldap
