import Ldap.Control
import Ldap.Proofs.Envelope.Canonical
import Ldap.Proofs.Request.GetAuthorizationEntry
import Ldap.Proofs.Request.Sync

/-! Requests and the values that carry them. A kind reads back what it has written, and writes no
more than it has read. -/
namespace Ldap
open Ber

namespace Request

@[simp] theorem Kind.oid_eq_iff {a b : Kind} : a.oid = b.oid ↔ a = b := by
  cases a <;> cases b <;> decide

theorem Kind.oid_ne_empty (kind : Kind) : kind.oid ≠ "" := by
  cases kind <;> decide

theorem ofValue_value {q : Request} (small : ∀ s ∈ q.value, s.length < 2 ^ 32) :
    ofValue q.kind q.value = .ok q := by
  cases q with
  | getAuthorizationEntry r =>
    change ofValue .getAuthorizationEntry r.value = _
    cases written : r.value with
    | none => rw [ofValue, GetAuthorizationEntry.value_eq_none_iff.1 written]
    | some s => simp [ofValue, GetAuthorizationEntry.ofBer_value written (small s written)]
  | suppressReferentialIntegrity => rfl
  | replicationRepair => rfl
  | sync r =>
    change ofValue .sync (some r.value) = _
    simp [ofValue, SyncRequest.ofBer_value (small r.value rfl)]

theorem ofValue_ok {kind : Kind} {v : Option Octets} {q : Request} (h : ofValue kind v = .ok q) :
    q.kind = kind ∧ ∀ s ∈ q.value, ∃ t ∈ v, s.length ≤ t.length := by
  cases kind with
  | getAuthorizationEntry =>
    cases v with
    | none =>
      cases h
      exact ⟨rfl, by simp [value, GetAuthorizationEntry.value]⟩
    | some t =>
      obtain ⟨r, read, rfl⟩ := map_ok_iff.1 h
      exact ⟨rfl, fun s written => ⟨t, rfl, GetAuthorizationEntry.value_length_le read written⟩⟩
  | suppressReferentialIntegrity =>
    cases v <;> cases h
    exact ⟨rfl, by simp [value]⟩
  | replicationRepair =>
    cases v <;> cases h
    exact ⟨rfl, by simp [value]⟩
  | sync =>
    cases v with
    | none => cases h
    | some t =>
      obtain ⟨r, read, rfl⟩ := map_ok_iff.1 h
      refine ⟨rfl, fun s written => ⟨t, rfl, ?_⟩⟩
      cases written
      exact SyncRequest.value_length_le read

end Request

namespace RequestControl

theorem ofEnvelope_iff {kind : Request.Kind} {c : Envelope} {a : RequestControl} :
    ofEnvelope kind c = .ok a ↔
      c.oid = kind.oid ∧ a.critical = c.critical ∧
      Request.ofValue kind c.value = .ok a.request := by
  obtain ⟨critical, request⟩ := a
  have named : c.expectOid kind.oid = .ok () ↔ c.oid = kind.oid := by
    unfold Envelope.expectOid
    split <;> simp_all
  simp only [ofEnvelope, bind_ok_iff, named, pure, Except.pure, Except.ok.injEq, mk.injEq]
  constructor
  · rintro ⟨_, oid, _, read, rfl, rfl⟩
    exact ⟨oid, rfl, read⟩
  · rintro ⟨oid, rfl, read⟩
    exact ⟨(), oid, _, read, rfl, rfl⟩

theorem ofEnvelope_own {kind : Request.Kind} {c : Envelope} (own : c.oid = kind.oid) :
    ofEnvelope kind c = (do return ⟨c.critical, ← Request.ofValue kind c.value⟩) := by
  have expected : c.expectOid kind.oid = .ok () := if_pos own
  simp [ofEnvelope, expected]

theorem ofEnvelope_toEnvelope {a : RequestControl}
    (small : ∀ s ∈ a.toEnvelope.value, s.length < 2 ^ 32) :
    ofEnvelope a.kind a.toEnvelope = .ok a :=
  ofEnvelope_iff.2 ⟨rfl, rfl, Request.ofValue_value small⟩

theorem ofEnvelope_ok {kind : Request.Kind} {c : Envelope} {a : RequestControl}
    (h : ofEnvelope kind c = .ok a) :
    a.kind = kind ∧ a.toEnvelope.Refines c := by
  obtain ⟨oid, critical, read⟩ := ofEnvelope_iff.1 h
  obtain ⟨same, value⟩ := Request.ofValue_ok read
  have same : a.kind = kind := same
  exact ⟨same, ⟨by rw [oid, ← same]; rfl, critical, value⟩⟩

end RequestControl
end Ldap
