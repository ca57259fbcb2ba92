import Ldap.Proofs.Envelope.Grammar

/-! Which octets are an envelope. `Spells` is the grammar, in any spelling of the lengths; all
other octets are malformed, and the fault names the OID as soon as the members are found and the
first of them is one. -/
namespace Ldap.Envelope
open Ber

/-- The octets that an envelope may be written with: its OID, an octet of criticality or none, a
value or none. -/
inductive Spells : Octets → Envelope → Prop
  | intro {s : Octets} {oid : String} (criticality : Option UInt8) (value : Option Octets) :
    oid ≠ "" →
      Element.Constructs Tag.sequence s
        (.ofText oid :: (criticality.toList.map (Element.mk Tag.boolean [·]) ++
          value.toList.map .ofOctets)) →
      Spells s ⟨oid, criticality.any (· != 0), value⟩

def Names (s : Octets) (oid : String) : Prop :=
  oid ≠ "" ∧ ∃ rest, Element.Constructs Tag.sequence s (.ofText oid :: rest)

theorem ofBer_eq (s : Octets) : ofBer s = (do
    ofMembers (← blame none (Element.ofBer s >>= Element.expectTag Tag.sequence >>=
      Element.children))) := by
  rw [ofBer]
  cases Element.ofBer s with
  | error e => rfl
  | ok e => rfl

theorem ofBer_iff_members {s : Octets} {c : Envelope} :
    ofBer s = .ok c ↔ ∃ es, Element.Constructs Tag.sequence s es ∧ ofMembers es = .ok c := by
  simp [ofBer_eq, ← Element.read_members_iff]

theorem ofBer_iff {s : Octets} {c : Envelope} : ofBer s = .ok c ↔ Spells s c := by
  rw [ofBer_iff_members]
  constructor
  · rintro ⟨es, members, read⟩
    obtain ⟨named, flag, isFlag, rfl⟩ := ofMembers_iff.1 read
    obtain ⟨criticality, same, rfl⟩ := Element.flag_iff.1 isFlag
    obtain ⟨oid, critical, value⟩ := c
    cases same
    exact .intro criticality value named members
  · rintro ⟨criticality, value, named, members⟩
    exact ⟨_, members, ofMembers_iff.2 ⟨named, _, Element.flag_iff.2 ⟨criticality, rfl, rfl⟩, rfl⟩⟩

theorem ofBer_fault {s : Octets} {e : DecodeError} (fault : ofBer s = .error e) :
    ∃ blamed, e.Blames blamed ∧ ∀ oid, blamed = some oid ↔ Names s oid := by
  rw [ofBer_eq] at fault
  rcases bind_error_iff.1 fault with unread | ⟨es, read, fault⟩
  · refine ⟨none, OnlyFails.blame_blames none _ e unread, fun oid =>
      ⟨nofun, fun ⟨_, rest, members⟩ => ?_⟩⟩
    rw [Element.read_members_iff.2 members] at unread
    cases unread
  · have members := Element.read_members_iff.1 (blame_ok_iff.1 read)
    obtain ⟨blamed, blames, names⟩ := ofMembers_fault fault
    refine ⟨blamed, blames, fun oid => (names oid).trans (and_congr_right fun _ =>
      exists_congr fun rest => ?_)⟩
    constructor
    · rintro rfl
      exact members
    · exact members.unique

/-- Octets are read as an envelope if and only if they are in the grammar of that envelope. All
others are malformed; the fault names an OID if and only if they are a sequence of elements that
begins with this OID. -/
theorem accepts_exactly_spellings (s : Octets) :
    (∀ c, ofBer s = .ok c ↔ Spells s c) ∧
    ((∀ c, ¬ Spells s c) → ∃ blamed reason, ofBer s = .error (.malformed blamed reason) ∧
      ∀ oid, blamed = some oid ↔ Names s oid) := by
  refine ⟨fun c => ofBer_iff, fun unspelled => ?_⟩
  cases fault : ofBer s with
  | ok c => exact absurd (ofBer_iff.1 fault) (unspelled c)
  | error e =>
    obtain ⟨blamed, ⟨reason, rfl⟩, names⟩ := ofBer_fault fault
    exact ⟨blamed, reason, rfl, names⟩

def lateCriticality : Octets := [0x30, 0x08, 0x04, 0x01, 0x31, 0x04, 0x00, 0x01, 0x01, 0xFF]

theorem long_lengths_spell :
    Spells [0x30, 0x81, 0x0A, 0x04, 0x82, 0x00, 0x01, 0x31, 0x01, 0x01, 0x05, 0x04, 0x00]
      ⟨"1", true, some []⟩ ∧
    (∀ c, ¬ Spells lateCriticality c) ∧ Names lateCriticality "1" ∧
    ofBer lateCriticality = .error (.malformed "1" (.strayElement Tag.boolean)) := by
  have fault : ofBer lateCriticality = .error (.malformed "1" (.strayElement Tag.boolean)) := by
    decide +kernel
  have unspelled : ∀ c, ¬ Spells lateCriticality c := by
    intro c spelled
    rw [((accepts_exactly_spellings lateCriticality).1 c).2 spelled] at fault
    cases fault
  obtain ⟨blamed, reason, refused, names⟩ := (accepts_exactly_spellings lateCriticality).2 unspelled
  have named : blamed = some "1" := by
    rw [refused] at fault
    cases fault
    rfl
  exact ⟨((accepts_exactly_spellings _).1 _).1 (by decide +kernel), unspelled,
    (names "1").1 named, fault⟩

end Ldap.Envelope
