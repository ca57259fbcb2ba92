import Ldap.Proofs.Registry.RawValues
import Ldap.Proofs.Request.Acceptance

/-! Faults of decoding from the wire. Each of them names the OID of the envelope, and its kind
tells the cause: a value that is missing, one that the type does not have, or an envelope or
octets that the type cannot make sense of. Faults of objects never arise here. -/
namespace Ldap

namespace DecodeError

def oid? : DecodeError → Option String
  | .conflictingValue oid _ => some oid
  | .unexpectedValue oid => some oid
  | .missingValue oid => some oid
  | .malformed oid _ => oid
  | .missingField _ => none
  | .typeMismatch _ _ => none
  | .unrecognizedField _ _ => none

def Kind.ofObjects : List Kind :=
  [.missingField, .typeMismatch, .unrecognizedField, .conflictingValue]

end DecodeError

namespace Request

def Kind.Misspelled : Kind → Octets → Prop
  | .getAuthorizationEntry, s => ∀ r, ¬ GetAuthorizationEntry.Spells s r
  | .sync, s => ∀ r, ¬ SyncRequest.Spells s r
  | .suppressReferentialIntegrity, _ => False
  | .replicationRepair, _ => False

variable {kind : Kind} {v : Option Octets} {s : Octets} {e : DecodeError}

theorem ofValue_fault (fault : ofValue kind v = .error e) :
    (e = .missingValue kind.oid ∧ kind = .sync ∧ v = none) ∨
    (e = .unexpectedValue kind.oid ∧ kind.policy = .forbidden ∧ v ≠ none) ∨
    (∃ reason, e = .malformed kind.oid reason) ∧ ∃ s, v = some s ∧ kind.Misspelled s := by
  cases kind with
  | getAuthorizationEntry =>
    cases v with
    | none => cases fault
    | some s =>
      have unread := map_error_iff.1 fault
      refine .inr (.inr ⟨GetAuthorizationEntry.ofBer_blames s e unread, s, rfl,
        fun r spelled => ?_⟩)
      rw [GetAuthorizationEntry.ofBer_iff.2 spelled] at unread
      cases unread
  | suppressReferentialIntegrity =>
    cases v with
    | none => cases fault
    | some s =>
      cases fault
      exact .inr (.inl ⟨rfl, rfl, nofun⟩)
  | replicationRepair =>
    cases v with
    | none => cases fault
    | some s =>
      cases fault
      exact .inr (.inl ⟨rfl, rfl, nofun⟩)
  | sync =>
    cases v with
    | none =>
      cases fault
      exact .inl ⟨rfl, rfl, rfl⟩
    | some s =>
      have unread := map_error_iff.1 fault
      refine .inr (.inr ⟨SyncRequest.ofBer_blames s e unread, s, rfl, fun r spelled => ?_⟩)
      rw [SyncRequest.ofBer_iff_spells.2 spelled] at unread
      cases unread

theorem ofValue_unexpected (valueless : kind.policy = .forbidden) (s : Octets) :
    ofValue kind (some s) = .error (.unexpectedValue kind.oid) := by
  cases kind with
  | getAuthorizationEntry => cases valueless
  | suppressReferentialIntegrity => rfl
  | replicationRepair => rfl
  | sync => cases valueless

theorem ofValue_misspelled (misspelled : kind.Misspelled s) :
    ∃ reason, ofValue kind (some s) = .error (.malformed kind.oid reason) := by
  cases kind with
  | getAuthorizationEntry =>
    have never : ∀ r, GetAuthorizationEntry.ofBer s ≠ .ok r := fun r read =>
      misspelled r (GetAuthorizationEntry.ofBer_iff.1 read)
    obtain ⟨reason, fault⟩ := (GetAuthorizationEntry.ofBer_blames s).exists_malformed never
    exact ⟨reason, map_error_iff.2 fault⟩
  | suppressReferentialIntegrity => exact misspelled.elim
  | replicationRepair => exact misspelled.elim
  | sync =>
    have never : ∀ r, SyncRequest.ofBer s ≠ .ok r :=
      fun r read => misspelled r (SyncRequest.ofBer_iff_spells.1 read)
    obtain ⟨reason, fault⟩ := (SyncRequest.ofBer_blames s).exists_malformed never
    exact ⟨reason, map_error_iff.2 fault⟩

end Request

theorem RequestControl.ofEnvelope_error_iff {kind : Request.Kind} {c : Envelope} {e : DecodeError} :
    ofEnvelope kind c = .error e ↔
      (c.oid ≠ kind.oid ∧ e = .malformed c.oid (.foreignOid kind.oid c.oid)) ∨
      (c.oid = kind.oid ∧ Request.ofValue kind c.value = .error e) := by
  by_cases own : c.oid = kind.oid
  · rw [ofEnvelope_own own]
    simp only [own, ne_eq, not_true_eq_false, false_and, true_and, false_or, bind_error_iff]
    simp [pure, Except.pure]
  · rw [ofEnvelope_foreign (Ne.symm own)]
    simp [own, eq_comm]

namespace Registry
variable {r : Registry} {c : Envelope} {e : DecodeError}

theorem decode_error_iff (kinds : r.OnlyKinds) : (r.decode c).1 = .error e ↔
    ∃ kind, r.decoder? c.oid = some (.ofKind kind) ∧
      RequestControl.ofEnvelope kind c = .error e := by
  rw [decode_fst]
  cases found : r.decoder? c.oid with
  | none => simp
  | some d =>
    obtain ⟨kind, rfl⟩ := kinds _ _ found
    simp [Decoder.decode]

def Meets (r : Registry) (kind : Request.Kind) (c : Envelope) : Prop :=
  r.decoder? c.oid = some (.ofKind kind) ∧ c.oid = kind.oid

def MissesValue (r : Registry) (c : Envelope) : Prop := r.Meets .sync c ∧ c.value = none

def RefusesValue (r : Registry) (c : Envelope) : Prop :=
  ∃ kind, kind.policy = .forbidden ∧ r.Meets kind c ∧ c.value ≠ none

def CannotRead (r : Registry) (c : Envelope) : Prop :=
  ∃ kind, r.decoder? c.oid = some (.ofKind kind) ∧
    (c.oid ≠ kind.oid ∨ ∃ s, c.value = some s ∧ kind.Misspelled s)

/-- What a fault of each kind is due to. -/
def Cause (r : Registry) (c : Envelope) : DecodeError.Kind → Prop
  | .missingValue => r.MissesValue c
  | .unexpectedValue => r.RefusesValue c
  | .malformed => r.CannotRead c
  | .missingField => False
  | .typeMismatch => False
  | .unrecognizedField => False
  | .conflictingValue => False

theorem Cause.not_ofObjects {kind : DecodeError.Kind} (cause : r.Cause c kind) :
    kind ∉ DecodeError.Kind.ofObjects := by
  intro field
  cases kind with
  | missingValue => revert field; decide
  | unexpectedValue => revert field; decide
  | malformed => revert field; decide
  | missingField => exact cause
  | typeMismatch => exact cause
  | unrecognizedField => exact cause
  | conflictingValue => exact cause

section
variable (kinds : r.OnlyKinds)
include kinds

theorem decode_fault (fault : (r.decode c).1 = .error e) :
    e.oid? = some c.oid ∧ r.Cause c e.kind := by
  obtain ⟨kind, found, refused⟩ := (decode_error_iff kinds).1 fault
  rcases RequestControl.ofEnvelope_error_iff.1 refused with ⟨foreign, rfl⟩ | ⟨own, refused⟩
  · exact ⟨rfl, kind, found, .inl foreign⟩
  · rw [own]
    rcases Request.ofValue_fault refused with
      ⟨rfl, rfl, absent⟩ | ⟨rfl, valueless, present⟩ | ⟨⟨reason, rfl⟩, s, carried, misspelled⟩
    · exact ⟨rfl, ⟨found, own⟩, absent⟩
    · exact ⟨rfl, kind, valueless, ⟨found, own⟩, present⟩
    · exact ⟨rfl, kind, found, .inr ⟨s, carried, misspelled⟩⟩

theorem Meets.decode_error {kind : Request.Kind} (meets : r.Meets kind c)
    (refused : Request.ofValue kind c.value = .error e) : (r.decode c).1 = .error e :=
  (decode_error_iff kinds).2 ⟨kind, meets.1,
    RequestControl.ofEnvelope_error_iff.2 (.inr ⟨meets.2, refused⟩)⟩

theorem Cause.exists_fault {kind : DecodeError.Kind} (cause : r.Cause c kind) :
    ∃ e, (r.decode c).1 = .error e ∧ e.kind = kind := by
  cases kind with
  | missingValue =>
    obtain ⟨meets, absent⟩ := cause
    exact ⟨_, meets.decode_error kinds (by rw [absent]; rfl), rfl⟩
  | unexpectedValue =>
    obtain ⟨kind, valueless, meets, present⟩ := cause
    obtain ⟨s, carried⟩ := Option.ne_none_iff_exists'.1 present
    exact ⟨_,
      meets.decode_error kinds (by rw [carried]; exact Request.ofValue_unexpected valueless s), rfl⟩
  | malformed =>
    obtain ⟨kind, found, wrong⟩ := cause
    by_cases own : c.oid = kind.oid
    · obtain ⟨s, carried, misspelled⟩ := wrong.resolve_left (not_not_intro own)
      obtain ⟨reason, refused⟩ := Request.ofValue_misspelled misspelled
      exact ⟨_, Meets.decode_error kinds ⟨found, own⟩ (by rw [carried]; exact refused), rfl⟩
    · exact ⟨_, (decode_error_iff kinds).2 ⟨kind, found,
        RequestControl.ofEnvelope_error_iff.2 (.inl ⟨own, rfl⟩)⟩, rfl⟩
  | missingField => exact cause.elim
  | typeMismatch => exact cause.elim
  | unrecognizedField => exact cause.elim
  | conflictingValue => exact cause.elim

theorem kind_eq_iff_cause (fault : (r.decode c).1 = .error e) (kind : DecodeError.Kind) :
    e.kind = kind ↔ r.Cause c kind := by
  constructor
  · rintro rfl
    exact (decode_fault kinds fault).2
  · intro cause
    obtain ⟨other, also, same⟩ := cause.exists_fault kinds
    rw [fault] at also
    cases also
    exact same

theorem decode_onlyFails (c : Envelope) :
    OnlyFails (·.kind ∉ DecodeError.Kind.ofObjects) (r.decode c).1 :=
  fun _ fault => (decode_fault kinds fault).2.not_ofObjects

end

/-- Where a registry of the request kinds does not decode an envelope, the fault names the OID of
the envelope and its kind tells the cause: a value is missing for a synchronization request under
its own OID only, a value is unexpected for a kind without values under its own OID only, and in
all other cases, which are a foreign OID and octets outside the grammar of values, the fault is
malformed octets. In each of these cases there is a fault. The kinds of fault that objects have
arise neither here, nor over a whole message, nor where its octets are taken for envelopes. -/
theorem wire_faults_tell_their_cause (kinds : r.OnlyKinds) (c : Envelope) :
    (∀ e, (r.decode c).1 = .error e → e.oid? = some c.oid ∧
      (e.kind = .missingValue ↔ r.MissesValue c) ∧ (e.kind = .unexpectedValue ↔ r.RefusesValue c) ∧
      (e.kind = .malformed ↔ r.CannotRead c) ∧ e.kind ∉ DecodeError.Kind.ofObjects) ∧
    ((∃ e, (r.decode c).1 = .error e) ↔ r.MissesValue c ∨ r.RefusesValue c ∨ r.CannotRead c) ∧
    (∀ cs e, (r.decodeAll cs).1 = .error e → e.kind ∉ DecodeError.Kind.ofObjects) ∧
    ∀ s e, Envelope.ofBer s = .error e ∨ Envelope.listOfBer s = .error e →
      e.kind ∉ DecodeError.Kind.ofObjects := by
  have fails (kind : DecodeError.Kind) (cause : r.Cause c kind) :
      ∃ e, (r.decode c).1 = .error e := by
    obtain ⟨e, fault, -⟩ := cause.exists_fault kinds
    exact ⟨e, fault⟩
  refine ⟨fun e fault => ⟨(decode_fault kinds fault).1, kind_eq_iff_cause kinds fault .missingValue,
    kind_eq_iff_cause kinds fault .unexpectedValue, kind_eq_iff_cause kinds fault .malformed,
    decode_onlyFails kinds c e fault⟩, ⟨fun ⟨e, fault⟩ => ?_, ?_⟩, fun cs e fault => ?_,
    fun s e fault => ?_⟩
  · have cause := (decode_fault kinds fault).2
    cases kind : e.kind <;> rw [kind] at cause
    case missingValue => exact .inl cause
    case unexpectedValue => exact .inr (.inl cause)
    case malformed => exact .inr (.inr cause)
    all_goals exact cause.elim
  · rintro (misses | refuses | unreadable)
    · exact fails .missingValue misses
    · exact fails .unexpectedValue refuses
    · exact fails .malformed unreadable
  · rw [decodeAll_fst] at fault
    exact OnlyFails.mapM (decode_onlyFails kinds) cs e fault
  · have kind : e.kind = .malformed :=
      fault.elim (Envelope.ofBer_fails s e) (Envelope.listOfBer_fails s e)
    rw [kind]
    decide

def misplaced : Registry := standard.register "1.2" (.ofKind .sync)

theorem misplaced_faults :
    (∃ e, (misplaced.decode ⟨SyncRequest.oid, false, none⟩).1 = .error e ∧
      e.oid? = some SyncRequest.oid ∧
      e.kind = .missingValue) ∧
    (∃ e, (misplaced.decode ⟨Request.Kind.replicationRepair.oid, true, some []⟩).1 = .error e ∧
      e.oid? = some Request.Kind.replicationRepair.oid ∧ e.kind = .unexpectedValue) ∧
    (∃ e, (misplaced.decode ⟨"1.2", false, none⟩).1 = .error e ∧ e.oid? = some "1.2" ∧
      e.kind = .malformed) ∧
    (∃ e, (misplaced.decode ⟨GetAuthorizationEntry.oid, false, some [0x30]⟩).1 = .error e ∧
      e.oid? = some GetAuthorizationEntry.oid ∧ e.kind = .malformed) ∧
    ∀ e, Envelope.listOfBer [0xA0, 0x02, 0x30, 0x00] = .error e →
      e.kind ∉ DecodeError.Kind.ofObjects := by
  have kinds : misplaced.OnlyKinds := OnlyKinds.standard.register "1.2" .sync
  have own (kind : Request.Kind) (elsewhere : "1.2" ≠ kind.oid) :
      misplaced.decoder? kind.oid = some (.ofKind kind) := by
    rw [misplaced, decoder?_register, if_neg elsewhere]
    exact decoder?_registerAll empty kind
  have foreign : misplaced.decoder? "1.2" = some (.ofKind .sync) := by
    simp [misplaced]
  have truncated : GetAuthorizationEntry.ofBer [0x30] =
      .error (.malformed GetAuthorizationEntry.oid (.ber (.truncated 1 0))) := by decide +kernel
  have misspelled : Request.Kind.getAuthorizationEntry.Misspelled [0x30] := by
    intro r spelled
    rw [GetAuthorizationEntry.ofBer_iff.2 spelled] at truncated
    cases truncated
  have misses : misplaced.MissesValue ⟨SyncRequest.oid, false, none⟩ :=
    ⟨⟨own .sync (by decide), rfl⟩, rfl⟩
  have refuses : misplaced.RefusesValue ⟨Request.Kind.replicationRepair.oid, true, some []⟩ :=
    ⟨.replicationRepair, rfl, ⟨own .replicationRepair (by decide), rfl⟩, nofun⟩
  have stranger : misplaced.CannotRead ⟨"1.2", false, none⟩ := ⟨.sync, foreign, .inl (by decide)⟩
  have garbled : misplaced.CannotRead ⟨GetAuthorizationEntry.oid, false, some [0x30]⟩ :=
    ⟨.getAuthorizationEntry, own .getAuthorizationEntry (by decide), .inr ⟨_, rfl, misspelled⟩⟩
  have caught (c : Envelope)
      (wrong : misplaced.MissesValue c ∨ misplaced.RefusesValue c ∨ misplaced.CannotRead c) :
      ∃ e, (misplaced.decode c).1 = .error e ∧ e.oid? = some c.oid ∧
        (e.kind = .missingValue ↔ misplaced.MissesValue c) ∧
        (e.kind = .unexpectedValue ↔ misplaced.RefusesValue c) ∧
        (e.kind = .malformed ↔ misplaced.CannotRead c) ∧ e.kind ∉ DecodeError.Kind.ofObjects := by
    obtain ⟨e, fault⟩ := (wire_faults_tell_their_cause kinds c).2.1.2 wrong
    exact ⟨e, fault, (wire_faults_tell_their_cause kinds c).1 e fault⟩
  refine ⟨?_, ?_, ?_, ?_, fun e fault =>
    (wire_faults_tell_their_cause kinds ⟨"", false, none⟩).2.2.2 _ e (.inr fault)⟩
  · obtain ⟨e, fault, oid, missing, -⟩ := caught _ (.inl misses)
    exact ⟨e, fault, oid, missing.2 misses⟩
  · obtain ⟨e, fault, oid, -, unexpected, -⟩ := caught _ (.inr (.inl refuses))
    exact ⟨e, fault, oid, unexpected.2 refuses⟩
  · obtain ⟨e, fault, oid, -, -, malformed, -⟩ := caught _ (.inr (.inr stranger))
    exact ⟨e, fault, oid, malformed.2 stranger⟩
  · obtain ⟨e, fault, oid, -, -, malformed, -⟩ := caught _ (.inr (.inr garbled))
    exact ⟨e, fault, oid, malformed.2 garbled⟩

end Registry
end Ldap
