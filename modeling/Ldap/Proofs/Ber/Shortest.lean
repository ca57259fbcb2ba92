import Ldap.Proofs.Ber.Element
import Mathlib.Data.Nat.Digits.Lemmas

/-! The shortest spelling of a length. `Form` has every definite form, also those with more digits
than are read; all but the written one have more octets than it. Digits and what they stand for
are those of `Nat.digits` and `Nat.ofDigits`, where the least significant comes first. -/
namespace Ldap.Ber.Length

theorem value_eq_ofDigits (s : Octets) :
    value s = Nat.ofDigits 256 (s.reverse.map UInt8.toNat) := by
  induction s using List.reverseRecOn with
  | nil => rfl
  | append_singleton s b ih =>
    rw [value_append_singleton, ih, List.reverse_append, List.reverse_singleton,
      List.singleton_append, List.map_cons, Nat.ofDigits_cons, Nat.add_comm]

theorem digits_eq_digits (n : Nat) : (digits n).reverse.map UInt8.toNat = Nat.digits 256 n := by
  fun_induction digits n with
  | case1 => rw [Nat.digits_zero]; rfl
  | case2 n positive ih =>
    rw [List.reverse_append, List.reverse_singleton, List.singleton_append, List.map_cons, ih,
      UInt8.toNat_ofNat', Nat.digits_def' (by decide : 1 < 256) (Nat.pos_of_ne_zero positive)]

@[simp] theorem length_digits (n : Nat) : (digits n).length = (Nat.digits 256 n).length := by
  rw [← digits_eq_digits, List.length_map, List.length_reverse]

theorem eq_of_value_eq {s t : Octets} (same : s.length = t.length) (h : value s = value t) :
    s = t := by
  have below (s : Octets) : ∀ digit ∈ s.reverse.map UInt8.toNat, digit < 256 := by
    intro digit member
    obtain ⟨b, -, rfl⟩ := List.mem_map.1 member
    exact b.toNat_lt
  rw [value_eq_ofDigits, value_eq_ofDigits] at h
  have reversed :=
    Nat.ofDigits_inj_of_len_eq (by decide) (by simpa using same) (below s) (below t) h
  exact List.reverse_injective (List.map_injective_iff.2 (fun _ _ => UInt8.toNat_inj.1) reversed)

/-- The definite forms of a length. Seven bits announce how many digits follow; all ones are
reserved. -/
inductive Form : Octets → Nat → Prop
  | short (b : UInt8) : b &&& 0x80 = 0 → Form [b] b.toNat
  | long (ds : Octets) : ds ≠ [] → ds.length < 127 → Form (announce ds.length :: ds) (value ds)

theorem Spells.form {l : Octets} {n : Nat} (h : Spells l n) : Form l n := by
  cases h with
  | short b clear => exact .short b clear
  | long ds nonempty few => exact .long ds nonempty (by omega)

theorem Form.encode_length_lt {l : Octets} {n : Nat} (h : Form l n) (other : l ≠ encode n) :
    (encode n).length < l.length := by
  cases h with
  | short b clear =>
    have small := lt_of_short b clear
    rw [encode_short small, UInt8.ofNat_toNat] at other
    exact absurd rfl other
  | long ds nonempty _ =>
    have some_digit := List.length_pos_iff.2 nonempty
    rw [List.length_cons]
    rcases Nat.lt_or_ge (value ds) 128 with small | large
    · rw [encode_short small, List.length_singleton]
      omega
    · have fewer : (digits (value ds)).length ≤ ds.length := digits_length_le (value_lt ds)
      have unlike : (digits (value ds)).length ≠ ds.length := by
        intro same
        have equal := eq_of_value_eq same (value_digits (value ds))
        rw [encode_long large, equal] at other
        exact other rfl
      rw [encode_long large, List.length_cons]
      omega

theorem form_encode {n : Nat} (fits : n < 2 ^ 64) : Form (encode n) n := by
  rcases Nat.lt_or_ge n 128 with small | large
  · have short := Form.short (.ofNat n) (short_of_lt n small)
    rw [UInt8.toNat_ofNat', Nat.mod_eq_of_lt (by omega)] at short
    rwa [encode_short small]
  · have few : (digits n).length ≤ 8 := digits_length_le fits
    have long := Form.long (digits n) (digits_ne_nil (by omega)) (by omega)
    rw [value_digits] at long
    rwa [encode_long large]

/-- A form of a length with fewer octets than any other. -/
structure Shortest (l : Octets) (n : Nat) : Prop where
  form : Form l n
  shorter : ∀ other, Form other n → other ≠ l → l.length < other.length

theorem shortest_encode {n : Nat} (fits : n < 2 ^ 64) : Shortest (encode n) n where
  form := form_encode fits
  shorter _ form other := form.encode_length_lt other

theorem length_encode_append {n : Nat} (fits : n < 2 ^ 64) (rest : Octets) :
    Reader.length (encode n ++ rest) =
      if n < 2 ^ 32 then .ok n rest
      else .error (.lengthTooLarge (Nat.digits 256 n).length) (digits n ++ rest) := by
  split
  · rename_i small
    exact Reader.length_iff.2 ⟨encode n, spells_encode small, rfl⟩
  · rename_i large
    have many : 4 < (digits n).length := digits_length_lt (by simpa using large)
    have few : (digits n).length ≤ 8 := digits_length_le fits
    rw [encode_long (by omega), List.cons_append, ← length_digits]
    exact Reader.length_announce many (by omega) (digits n ++ rest)

theorem gathered_of_spells {l : Octets} {n : Nat} (h : Spells l n) : ∃ first ds, l = first :: ds ∧
    n = (if ds = [] then first.toNat else Nat.ofDigits 256 (ds.reverse.map UInt8.toNat)) ∧
    ∀ front, front <+: ds →
      (word front).toNat = Nat.ofDigits 256 (front.reverse.map UInt8.toNat) := by
  cases h with
  | short b _ =>
    refine ⟨b, [], rfl, (if_pos rfl).symm, fun front none => ?_⟩
    rw [List.prefix_nil.1 none]
    rfl
  | long ds nonempty few =>
    refine ⟨announce ds.length, ds, rfl, ?_, fun front part => ?_⟩
    · rw [if_neg nonempty, value_eq_ofDigits]
    · rw [word_toNat (Nat.le_trans part.length_le few), value_eq_ofDigits]

/-- A written length below four gigabytes is read back, whatever follows; a larger one is refused
with the number of its digits. A length that is read is below four gigabytes and is the whole
number that its digits spell, none of which is lost from the word that they are gathered in, not
even on the way. What is written for it is read as it, and everything else that is read as it has
more octets. -/
theorem written_length_is_shortest_read (s : Octets) :
    (∀ n, n < 2 ^ 64 → Reader.length (encode n ++ s) =
      if n < 2 ^ 32 then .ok n s
      else .error (.lengthTooLarge (Nat.digits 256 n).length) (digits n ++ s)) ∧
    ∀ n rest, Reader.length s = .ok n rest →
      n < 2 ^ 32 ∧
      (∃ first ds, s = first :: ds ++ rest ∧
        n = (if ds = [] then first.toNat else Nat.ofDigits 256 (ds.reverse.map UInt8.toNat)) ∧
        ∀ front, front <+: ds →
          (word front).toNat = Nat.ofDigits 256 (front.reverse.map UInt8.toNat)) ∧
      Reader.length (encode n) = .ok n [] ∧
      ∀ l, Reader.length l = .ok n [] → l ≠ encode n → (encode n).length < l.length := by
  refine ⟨fun n fits => length_encode_append fits s, fun n rest read => ?_⟩
  obtain ⟨spelling, spelled, rfl⟩ := Reader.length_iff.1 read
  refine ⟨spelled.lt, ?_, ?_, ?_⟩
  · obtain ⟨first, ds, rfl, gathered⟩ := gathered_of_spells spelled
    exact ⟨first, ds, rfl, gathered⟩
  · exact Reader.length_iff.2 ⟨encode n, spells_encode spelled.lt, (List.append_nil _).symm⟩
  · intro l accepted other
    obtain ⟨used, form, whole⟩ := Reader.length_iff.1 accepted
    rw [List.append_nil] at whole
    subst whole
    exact form.form.encode_length_lt other

theorem padded_length_read :
    Reader.length (encode 200 ++ [0x07]) = .ok 200 [0x07] ∧
    Reader.length (encode (2 ^ 32) ++ [0x07]) =
      .error (.lengthTooLarge 5) [0x01, 0x00, 0x00, 0x00, 0x00, 0x07] ∧
    Reader.length [0x82, 0x00, 0xC8, 0x07] = .ok 200 [0x07] ∧
    (encode 200).length < ([0x82, 0x00, 0xC8] : Octets).length := by
  have small : digits 200 = [0xC8] := by simp [digits]
  have large : digits (2 ^ 32) = [0x01, 0x00, 0x00, 0x00, 0x00] := by simp [digits]
  obtain ⟨written, -⟩ := written_length_is_shortest_read [0x07]
  obtain ⟨-, read⟩ := written_length_is_shortest_read [0x82, 0x00, 0xC8, 0x07]
  obtain ⟨-, -, -, shortest⟩ := read 200 [0x07] rfl
  refine ⟨written 200 (by decide), ?_, rfl, shortest _ rfl ?_⟩
  · rw [written (2 ^ 32) (by decide), ← length_digits, large]
    rfl
  · rw [encode, small]
    decide

end Ldap.Ber.Length
