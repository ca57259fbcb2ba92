import Ldap.Octets
import Mathlib.Tactic.SplitIfs

/-! UTF-8 keeps the order of text: texts sorted by their characters are sorted by their octets. -/
namespace Ldap

theorem utf8_eq_flatMap (s : String) : utf8 s = s.toList.flatMap String.utf8EncodeChar := by
  have encoded : s.toByteArray = s.toList.utf8Encode := String.utf8Encode_toList.symm
  rw [utf8, String.toUTF8_eq_toByteArray, encoded, List.utf8Encode, List.data_toByteArray,
    List.toList_toArray]

/-- Characters of more octets have the greater first octet; among those of as many, the first
octet that differs is that of the first digit to base 64 that differs. So two characters are told
apart before either ends. -/
theorem encodeChar_append_lt {c d : Char} (h : c < d) (s t : Octets) :
    String.utf8EncodeChar c ++ s < String.utf8EncodeChar d ++ t := by
  have less : c.val.toNat < d.val.toNat := h
  have bound : d.val.toNat < 0x110000 := by
    rcases d.valid with low | ⟨_, high⟩
    · omega
    · exact high
  clear h
  unfold String.utf8EncodeChar
  dsimp only
  generalize c.val.toNat = v at *
  generalize d.val.toNat = w at *
  split_ifs
  all_goals
    simp only [List.cons_append, List.nil_append, List.cons_lt_cons_iff, UInt8.lt_iff_toNat_lt,
      UInt8.toNat_ofNat', ← UInt8.toNat_inj]
    simp (disch := omega) only [Nat.mod_eq_of_lt]
    omega

theorem flatMap_encodeChar_lt {cs ds : List Char} (h : cs < ds) :
    cs.flatMap String.utf8EncodeChar < ds.flatMap String.utf8EncodeChar := by
  induction cs generalizing ds with
  | nil =>
    cases ds with
    | nil => cases h
    | cons d ds =>
      have first : String.utf8EncodeChar d ≠ [] := String.utf8EncodeChar_ne_nil
      cases encoded : String.utf8EncodeChar d with
      | nil => exact absurd encoded first
      | cons b s =>
        rw [List.flatMap_nil, List.flatMap_cons, encoded]
        exact List.nil_lt_cons b _
  | cons c cs ih =>
    cases ds with
    | nil => cases h
    | cons d ds =>
      rw [List.flatMap_cons, List.flatMap_cons]
      rcases List.cons_lt_cons_iff.1 h with first | ⟨rfl, others⟩
      · exact encodeChar_append_lt first _ _
      · exact List.append_left_lt (ih others)

theorem utf8_lt_utf8 {s t : String} (h : s < t) : utf8 s < utf8 t := by
  have characters : s.toList < t.toList := h
  rw [utf8_eq_flatMap, utf8_eq_flatMap]
  exact flatMap_encodeChar_lt characters

end Ldap
