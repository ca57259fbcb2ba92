import Ldap.Proofs.Outcome
import Ldap.Proofs.Text.Order

/-! Hexadecimal spelling. The case of a letter never counts, not even where a spelling is refused;
but for the case of its letters, an octet string has one spelling. -/
namespace Ldap.Octets

def lowerHex (c : Char) : Char := if 'A' ≤ c ∧ c ≤ 'F' then c.toLower else c

def lowerOctet (b : UInt8) : UInt8 := if 0x41 ≤ b ∧ b ≤ 0x46 then b + 0x20 else b

theorem lowerHex_of_ge {c : Char} (wide : 0x80 ≤ c.toNat) : lowerHex c = c := by
  refine if_neg fun letter => ?_
  have last : c.toNat ≤ 0x46 := letter.2
  omega

theorem lowerOctet_of_ge {b : UInt8} (wide : 0x80 ≤ b.toNat) : lowerOctet b = b := by
  refine if_neg fun letter => ?_
  have last : b.toNat ≤ 0x46 := letter.2
  omega

theorem ge_of_mem_encodeChar {c : Char} (wide : 0x80 ≤ c.toNat) :
    ∀ b ∈ String.utf8EncodeChar c, 0x80 ≤ b.toNat := by
  change 0x80 ≤ c.val.toNat at wide
  unfold String.utf8EncodeChar
  dsimp only
  generalize c.val.toNat = v at *
  split_ifs
  all_goals
    simp only [List.forall_mem_cons, UInt8.toNat_ofNat', List.not_mem_nil, false_imp_iff,
      implies_true, and_true]
    omega

@[simp] theorem encodeChar_lowerHex (c : Char) :
    String.utf8EncodeChar (lowerHex c) = (String.utf8EncodeChar c).map lowerOctet := by
  by_cases wide : 0x80 ≤ c.toNat
  · have unchanged : ∀ b ∈ String.utf8EncodeChar c, lowerOctet b = b := fun b member =>
      lowerOctet_of_ge (ge_of_mem_encodeChar wide b member)
    rw [lowerHex_of_ge wide, List.map_congr_left unchanged, List.map_id']
  · have all : ∀ n < 0x80, String.utf8EncodeChar (lowerHex (Char.ofNat n)) =
        (String.utf8EncodeChar (Char.ofNat n)).map lowerOctet := by decide
    simpa only [Char.ofNat_toNat] using all c.toNat (by omega)

@[simp] theorem utf8_lowerHex (cs : List Char) :
    utf8 (.ofList (cs.map lowerHex)) = (utf8 (.ofList cs)).map lowerOctet := by
  rw [utf8_eq_flatMap, utf8_eq_flatMap, String.toList_ofList, String.toList_ofList]
  induction cs with
  | nil => rfl
  | cons c cs ih => simp [ih]

@[simp] theorem hexDigit_lowerOctet (position : Nat) (b : UInt8) :
    hexDigit position (lowerOctet b) = hexDigit position b := by
  have all : ∀ n < 256, Text.hexDigit? (Char.ofNat (lowerOctet (.ofNat n)).toNat) =
      Text.hexDigit? (Char.ofNat (UInt8.ofNat n).toNat) ∧
      (Text.hexDigit? (Char.ofNat (UInt8.ofNat n).toNat) = none →
        lowerOctet (.ofNat n) = .ofNat n) := by
    decide +kernel
  obtain ⟨same, other⟩ := all b.toNat b.toNat_lt
  rw [UInt8.ofNat_toNat] at same other
  rw [hexDigit, hexDigit, same]
  split
  · rfl
  · rename_i none
    rw [other none]

@[simp] theorem hexPairs_lowerOctet (position : Nat) (s : Octets) :
    hexPairs position (s.map lowerOctet) = hexPairs position s := by
  fun_induction hexPairs position s with
  | case1 position a b rest ih => simp [hexPairs, ih]
  | case2 s position short =>
    rcases s with _ | ⟨a, _ | ⟨b, rest⟩⟩
    · rfl
    · rfl
    · exact absurd rfl (short a b rest)

@[simp] theorem ofHex_lowerHex (cs : List Char) :
    ofHex (.ofList (cs.map lowerHex)) = ofHex (.ofList cs) := by
  simp [ofHex]

/-! The spelling of octets, and that there is no other. -/

def digitOctet (n : Nat) : UInt8 := .ofNat (Nat.digitChar n).toNat

theorem encodeChar_digitChar :
    ∀ n < 16, String.utf8EncodeChar (Nat.digitChar n) = [digitOctet n] := by decide

theorem utf8_hex (s : Octets) :
    utf8 s.hex = s.flatMap fun b => [digitOctet (b.toNat / 16), digitOctet (b.toNat % 16)] := by
  rw [utf8_eq_flatMap, hex, String.toList_ofList, List.flatMap_assoc]
  congr 1
  funext b
  have := b.toNat_lt
  rw [Text.hexPair, List.flatMap_cons, List.flatMap_singleton, encodeChar_digitChar _ (by omega),
    encodeChar_digitChar _ (by omega), List.singleton_append]

theorem hexDigit_ok_iff {position n : Nat} {b : UInt8} :
    hexDigit position b = .ok n ↔ n < 16 ∧ lowerOctet b = digitOctet n := by
  have all : ∀ m < 256, ∀ n < 16, (Text.hexDigit? (Char.ofNat (UInt8.ofNat m).toNat) = some n ↔
      lowerOctet (.ofNat m) = digitOctet n) := by decide +kernel
  have same := all b.toNat b.toNat_lt n
  rw [UInt8.ofNat_toNat] at same
  have ok : hexDigit position b = .ok n ↔ Text.hexDigit? (Char.ofNat b.toNat) = some n := by
    unfold hexDigit
    split <;> simp_all
  rw [ok]
  constructor
  · intro digit
    have small := Text.hexDigit?_lt digit
    exact ⟨small, (same small).1 digit⟩
  · intro ⟨small, spelled⟩
    exact (same small).2 spelled

theorem hexPairs_ok_iff {position : Nat} {s o : Octets} (even : s.length % 2 = 0) :
    hexPairs position s = .ok o ↔
      s.map lowerOctet = o.flatMap fun b =>
        [digitOctet (b.toNat / 16), digitOctet (b.toNat % 16)] := by
  fun_induction hexPairs position s generalizing o with
  | case1 position a b rest ih =>
    have rest_even : rest.length % 2 = 0 := by
      simp only [List.length_cons] at even
      omega
    simp only [bind_ok_iff, hexDigit_ok_iff, ih rest_even, pure, Except.pure, Except.ok.injEq,
      List.map_cons]
    constructor
    · rintro ⟨high, ⟨high_lt, first⟩, low, ⟨low_lt, second⟩, octets, others, rfl⟩
      have whole : (UInt8.ofNat (16 * high + low)).toNat = 16 * high + low := by
        rw [UInt8.toNat_ofNat', Nat.mod_eq_of_lt (by omega)]
      rw [first, second, others, List.flatMap_cons, whole,
        show (16 * high + low) / 16 = high by omega, show (16 * high + low) % 16 = low by omega]
      rfl
    · intro spelled
      cases o with
      | nil => cases spelled
      | cons x octets =>
        have := x.toNat_lt
        rw [List.flatMap_cons, List.cons_append, List.cons_append, List.nil_append, List.cons.injEq,
          List.cons.injEq] at spelled
        obtain ⟨first, second, others⟩ := spelled
        refine ⟨x.toNat / 16, ⟨by omega, first⟩, x.toNat % 16, ⟨by omega, second⟩,
          octets, others, ?_⟩
        rw [Nat.div_add_mod, UInt8.ofNat_toNat]
  | case2 s position short =>
    rcases s with _ | ⟨a, _ | ⟨b, rest⟩⟩
    · cases o <;> simp
    · cases even
    · exact absurd rfl (short a b rest)

theorem utf8_injective {s t : String} (h : utf8 s = utf8 t) : s = t := by
  have same := congrArg text? h
  rwa [text?_utf8, text?_utf8, Option.some.injEq] at same

theorem ofHex_ok_iff {t : String} {o : Octets} :
    ofHex t = .ok o ↔ t.toList.map lowerHex = o.hex.toList := by
  have octets : t.toList.map lowerHex = o.hex.toList ↔ (utf8 t).map lowerOctet = utf8 o.hex := by
    have lowered := utf8_lowerHex t.toList
    rw [String.ofList_toList] at lowered
    rw [← lowered]
    constructor
    · intro same
      rw [same, String.ofList_toList]
    · intro same
      rw [← utf8_injective same, String.toList_ofList]
  rw [octets, utf8_hex, ofHex]
  split
  · rename_i even
    exact hexPairs_ok_iff even
  · rename_i odd
    simp only [reduceCtorEq, false_iff]
    intro spelled
    have count := congrArg List.length spelled
    simp only [List.length_map, List.length_flatMap, List.length_cons, List.length_nil,
      List.map_const', List.sum_replicate_nat] at count
    omega

end Ldap.Octets
