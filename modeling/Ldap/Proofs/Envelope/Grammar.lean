import Ldap.Envelope
import Ldap.Proofs.Ber.Members

/-! Envelopes on the wire. `ofMembers_iff` is the grammar of an envelope; the members that are
written belong to it when the OID is not empty. Whatever is no envelope is malformed. -/
namespace Ldap.Envelope
open Ber

theorem controlType_iff {es rest : List Element} {oid : String} :
    controlType es = .ok (oid, rest) ↔ oid ≠ "" ∧ es = .ofText oid :: rest := by
  constructor
  · intro h
    cases es with
    | nil => cases h
    | cons e es =>
      rw [controlType] at h
      split at h
      · rename_i tag
        obtain ⟨s, read, h⟩ := bind_ok_iff.1 h
        split at h
        · cases h
        · rename_i nonempty
          cases h
          exact ⟨nonempty, by rw [Element.eq_ofText tag (blame_ok_iff.1 read)]⟩
      · cases h
  · rintro ⟨nonempty, rfl⟩
    simp [controlType, nonempty]

theorem ofMembers_iff {es : List Element} {c : Envelope} :
    ofMembers es = .ok c ↔ c.oid ≠ "" ∧ ∃ flag, Element.Flag c.critical flag ∧
      es = .ofText c.oid :: (flag ++ c.value.toList.map .ofOctets) := by
  unfold ofMembers
  constructor
  · intro h
    obtain ⟨⟨oid, rest⟩, front, others⟩ := bind_ok_iff.1 h
    obtain ⟨nonempty, rfl⟩ := controlType_iff.1 front
    obtain ⟨⟨critical, tail⟩, read, last⟩ := bind_ok_iff.1 others
    obtain ⟨flag, isFlag, rfl⟩ := Element.optionalBool_ok (blame_ok_iff.1 read)
    have value := Element.optionalOctets_eq tail
    dsimp only at last
    split at last
    · rename_i done
      cases last
      exact ⟨nonempty, flag, isFlag, by rw [done, List.append_nil] at value; rw [← value]⟩
    · cases last
  · rintro ⟨nonempty, flag, isFlag, rfl⟩
    obtain ⟨critical, read, same⟩ := Element.optionalBool_flag isFlag (c.value.toList.map .ofOctets)
      (by cases c.value <;> simp [Element.ofOctets, Tag.octetString, Tag.boolean])
    have value := Element.optionalOctets_append c.value [] (by simp)
    rw [List.append_nil] at value
    have front (rest : List Element) : controlType (.ofText c.oid :: rest) = .ok (c.oid, rest) :=
      controlType_iff.2 ⟨nonempty, rfl⟩
    simp [front, read, value, same]

@[simp] theorem ofMembers_members {c : Envelope} (nonempty : c.oid ≠ "") :
    ofMembers c.members = .ok c :=
  ofMembers_iff.2 ⟨nonempty, _, Element.flag_written c.critical, rfl⟩

theorem ofMembers_members_empty {c : Envelope} (empty : c.oid = "") :
    ofMembers c.members = .error (.malformed none .emptyControlType) := by
  rw [ofMembers, members, controlType, Element.ofText_tag, if_pos rfl, Element.text_ofText,
    blame_ok, ok_bind, if_pos empty, error_bind]

theorem ofMembers_members_iff {c g : Envelope} :
    ofMembers c.members = .ok g ↔ g = c ∧ c.oid ≠ "" := by
  by_cases empty : c.oid = ""
  · simp [ofMembers_members_empty empty, empty]
  · simp [ofMembers_members empty, empty, eq_comm]

theorem members_single {c : Envelope} : ∀ e ∈ c.members, Tag.isMultiOctet e.tag = false := by
  intro e member
  simp only [members, List.mem_cons, List.mem_append, List.mem_map, Option.mem_toList] at member
  rcases member with rfl | member | ⟨s, _, rfl⟩
  · exact Tag.octetString_single
  · split at member
    · rw [List.mem_singleton.1 member]
      exact Tag.boolean_single
    · cases member
  · exact Tag.octetString_single

theorem members_length_le {es : List Element} {c : Envelope} (h : ofMembers es = .ok c) :
    (c.members.flatMap Element.toBer).length ≤ (es.flatMap Element.toBer).length := by
  obtain ⟨_, flag, isFlag, rfl⟩ := ofMembers_iff.1 h
  have := isFlag.written_length_le
  simp only [members, List.flatMap_cons, List.flatMap_append, List.length_append]
  omega

theorem ofElement_iff {e : Element} {c : Envelope} :
    ofElement e = .ok c ↔ e.tag = Tag.sequence ∧ ∃ es, e.children = .ok es ∧
    ofMembers es = .ok c := by
  simp only [ofElement, bind_ok_iff, blame_ok_iff, Element.expectTag_ok]
  constructor
  · rintro ⟨es, ⟨_, ⟨tag, rfl⟩, inner⟩, read⟩
    exact ⟨tag, es, inner, read⟩
  · rintro ⟨tag, es, inner, read⟩
    exact ⟨es, ⟨_, ⟨tag, rfl⟩, inner⟩, read⟩

theorem ofElement_toElement {c : Envelope} (small : c.toElement.content.length < 2 ^ 32) :
    ofElement c.toElement = ofMembers c.members := by
  have inner : c.toElement.children = .ok c.members :=
    Element.children_ofChildren Tag.sequence members_single small
  have tag : c.toElement.expectTag Tag.sequence = .ok c.toElement :=
    Element.expectTag_ok.2 ⟨rfl, rfl⟩
  simp [ofElement, tag, inner]

/-! Faults before the OID is known name none, and those behind it name it. -/

theorem controlType_blames (es : List Element) : OnlyFails (·.Blames none) (controlType es) := by
  cases es with
  | nil => exact .error ⟨_, rfl⟩
  | cons e es =>
    rw [controlType]
    split
    · refine (OnlyFails.blame_blames none e.text).bind fun oid => ?_
      split
      · exact .error ⟨_, rfl⟩
      · exact .ok _
    · exact .error ⟨_, rfl⟩

theorem ofMembers_blames {oid : String} (named : oid ≠ "") (rest : List Element) :
    OnlyFails (·.Blames oid) (ofMembers (.ofText oid :: rest)) := by
  have front : controlType (.ofText oid :: rest) = .ok (oid, rest) := controlType_iff.2 ⟨named, rfl⟩
  rw [ofMembers, front, ok_bind]
  refine (OnlyFails.blame_blames oid (Element.optionalBool rest)).bind fun (critical, rest) => ?_
  dsimp only
  split
  · exact .ok _
  · exact .error ⟨_, rfl⟩

theorem ofMembers_fault {es : List Element} {e : DecodeError} (fault : ofMembers es = .error e) :
    ∃ blamed, e.Blames blamed ∧ ∀ oid, blamed = some oid ↔ oid ≠ "" ∧
      ∃ rest, es = .ofText oid :: rest := by
  cases front : controlType es with
  | error first =>
    rw [ofMembers, front] at fault
    cases fault
    refine ⟨none, controlType_blames es e front, fun oid => ⟨nofun, fun ⟨named, rest, whole⟩ => ?_⟩⟩
    rw [controlType_iff.2 ⟨named, whole⟩] at front
    cases front
  | ok first =>
    obtain ⟨oid, rest⟩ := first
    obtain ⟨named, rfl⟩ := controlType_iff.1 front
    refine ⟨some oid, ofMembers_blames named rest e fault, fun other =>
      ⟨fun same => ?_, fun ⟨also, tail, whole⟩ => ?_⟩⟩
    · cases same
      exact ⟨named, rest, rfl⟩
    · rw [controlType_iff.2 ⟨also, whole⟩] at front
      cases front
      rfl

/-! Every octet string that is no envelope, or no list of envelopes, is malformed. -/

theorem ofMembers_fails (es : List Element) : OnlyFails (·.kind = .malformed) (ofMembers es) := by
  intro e fault
  obtain ⟨blamed, ⟨reason, rfl⟩, -⟩ := ofMembers_fault fault
  rfl

theorem ofElement_fails (e : Element) : OnlyFails (·.kind = .malformed) (ofElement e) :=
  (OnlyFails.blame (fun _ => rfl) _).bind ofMembers_fails

theorem ofBer_fails (s : Octets) : OnlyFails (·.kind = .malformed) (ofBer s) :=
  (OnlyFails.blame (fun _ => rfl) _).bind ofElement_fails

theorem listOfBer_fails (s : Octets) : OnlyFails (·.kind = .malformed) (listOfBer s) :=
  (OnlyFails.blame (fun _ => rfl) _).bind (OnlyFails.mapM ofElement_fails)

end Ldap.Envelope
