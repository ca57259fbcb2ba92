import Ldap.Proofs.Ber.Members
import Ldap.Request.SyncRequest

/-! The value of the content synchronization request on the wire. Mode, cookie and hint are read
in this order or not at all; what is written is the shortest value with the same meaning. -/
namespace Ldap
open Ber

theorem SyncMode.ofCode_iff {n : UInt8} {mode : SyncMode} :
    ofCode n = .ok mode ↔ n = mode.code := by
  constructor
  · intro h
    unfold ofCode at h
    split at h
    · cases h
      assumption
    · split at h
      · cases h
        assumption
      · cases h
  · rintro rfl
    cases mode <;> rfl

namespace SyncRequest

theorem readMode_iff {es rest : List Element} {mode : SyncMode} :
    readMode es = .ok (mode, rest) ↔ es = .ofEnumerated mode.code :: rest := by
  cases es with
  | nil => simp [readMode]
  | cons e es =>
    obtain ⟨t, content⟩ := e
    simp only [readMode, bind_ok_iff, blame_ok_iff, Element.expectTag_ok, Element.enumerated,
      Element.single_ok, SyncMode.ofCode_iff, pure, Except.pure, Except.ok.injEq, Prod.mk.injEq,
      Element.ofEnumerated,
      List.cons.injEq, Element.mk.injEq]
    constructor
    · rintro ⟨n, ⟨_, ⟨tag, rfl⟩, content⟩, _, rfl, rfl, rfl⟩
      exact ⟨⟨tag, content⟩, rfl⟩
    · rintro ⟨⟨tag, content⟩, rfl⟩
      exact ⟨mode.code, ⟨_, ⟨tag, rfl⟩, content⟩, mode, rfl, rfl, rfl⟩

theorem ofMembers_iff {es : List Element} {r : SyncRequest} :
    ofMembers es = .ok r ↔ ∃ hint, Element.Flag r.reloadHint hint ∧
      es = .ofEnumerated r.mode.code :: (r.cookie.toList.map .ofOctets ++ hint) := by
  unfold ofMembers
  constructor
  · intro h
    obtain ⟨⟨mode, rest⟩, front, others⟩ := bind_ok_iff.1 h
    rw [readMode_iff] at front
    have parts := Element.optionalOctets_eq rest
    dsimp only at others
    generalize Element.optionalOctets rest = split at parts others
    obtain ⟨cookie, tail⟩ := split
    obtain ⟨⟨flag, left⟩, read, last⟩ := bind_ok_iff.1 others
    obtain ⟨hint, isFlag, rfl⟩ := Element.optionalBool_ok (blame_ok_iff.1 read)
    dsimp only at last
    split at last
    · cases last
      rw [List.append_nil] at parts
      exact ⟨hint, isFlag, by rw [front, parts]⟩
    · cases last
  · rintro ⟨hint, isFlag, rfl⟩
    have cookie := Element.optionalOctets_append r.cookie hint isFlag.not_octets
    obtain ⟨flag, read, same⟩ := Element.optionalBool_flag isFlag [] (by simp)
    rw [List.append_nil] at read
    have front (rest : List Element) : readMode (.ofEnumerated r.mode.code :: rest) =
        .ok (r.mode, rest) :=
      readMode_iff.2 rfl
    simp [front, cookie, read, same]

@[simp] theorem ofMembers_members (r : SyncRequest) : ofMembers r.members = .ok r :=
  ofMembers_iff.2 ⟨_, Element.flag_written r.reloadHint, rfl⟩

theorem ofMembers_single {es : List Element} {r : SyncRequest} (h : ofMembers es = .ok r) :
    ∀ e ∈ es, Tag.isMultiOctet e.tag = false := by
  obtain ⟨hint, isFlag, rfl⟩ := ofMembers_iff.1 h
  simp only [List.forall_mem_cons, List.forall_mem_append, List.forall_mem_map]
  exact ⟨Tag.enumerated_single, fun s _ => Tag.octetString_single,
    fun e member => isFlag.tag_eq e member ▸ Tag.boolean_single⟩

theorem members_length_le {es : List Element} {r : SyncRequest} (h : ofMembers es = .ok r) :
    (r.members.flatMap Element.toBer).length ≤ (es.flatMap Element.toBer).length := by
  obtain ⟨hint, isFlag, rfl⟩ := ofMembers_iff.1 h
  have := isFlag.written_length_le
  simp only [members, List.flatMap_cons, List.flatMap_append, List.length_append]
  omega

theorem ofBer_iff {s : Octets} {r : SyncRequest} :
    ofBer s = .ok r ↔ ∃ es, Element.Constructs Tag.sequence s es ∧ ofMembers es = .ok r := by
  simp [ofBer, ← Element.read_members_iff]

theorem ofBer_value {r : SyncRequest} (small : r.value.length < 2 ^ 32) :
    ofBer r.value = .ok r := by
  have content := Element.content_le_toBer (.ofChildren Tag.sequence r.members)
  have small := Nat.lt_of_le_of_lt content small
  have read := ofMembers_members r
  exact ofBer_iff.2 ⟨_, Element.constructs_toBer Tag.sequence_single (ofMembers_single read) small,
    read⟩

theorem value_length_le {s : Octets} {r : SyncRequest} (h : ofBer s = .ok r) :
    r.value.length ≤ s.length := by
  obtain ⟨es, read, inner⟩ := bind_ok_iff.1 h
  exact Element.read_members_length_le (blame_ok_iff.1 read) (members_length_le inner)

end SyncRequest
end Ldap
