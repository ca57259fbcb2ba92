import Ldap.Ber.Reader
import Mathlib.Algebra.Group.Nat.Defs
import Mathlib.Data.List.Induction

/-! Length octets. `Spells` is the grammar that readers accept: the short form, or the long form
with one to four digits of any kind. The shortest spelling is the one that is written. -/
namespace Ldap.Ber.Length

def value (s : Octets) : Nat := s.foldl (fun n b => 256 * n + b.toNat) 0

@[simp] theorem value_append_singleton (s : Octets) (b : UInt8) :
    value (s ++ [b]) = 256 * value s + b.toNat := by
  simp [value]

theorem value_lt (s : Octets) : value s < 256 ^ s.length := by
  induction s using List.reverseRecOn with
  | nil => simp [value]
  | append_singleton s b ih =>
    rw [value_append_singleton, List.length_append, List.length_singleton, Nat.pow_succ]
    have := b.toNat_lt
    omega

@[simp] theorem value_digits (n : Nat) : value (digits n) = n := by
  fun_induction digits n with
  | case1 => rfl
  | case2 n positive ih =>
    rw [value_append_singleton, ih, UInt8.toNat_ofNat']
    omega

theorem digits_length_le {n k : Nat} (h : n < 256 ^ k) : (digits n).length ≤ k := by
  fun_induction digits n generalizing k with
  | case1 => simp
  | case2 n positive ih =>
    cases k with
    | zero => omega
    | succ k =>
      rw [Nat.pow_succ] at h
      have := ih (Nat.div_lt_of_lt_mul (by omega : n < 256 * 256 ^ k))
      simp only [List.length_append, List.length_singleton]
      omega

theorem digits_length_lt {n k : Nat} (h : 256 ^ k ≤ n) : k < (digits n).length := by
  by_contra short
  have bound := value_lt (digits n)
  rw [value_digits] at bound
  have := Nat.pow_le_pow_right (n := 256) (by omega) (Nat.le_of_not_lt short)
  omega

@[simp] theorem word_toNat_mod (s : Octets) : (word s).toNat = value s % 2 ^ 32 := by
  induction s using List.reverseRecOn with
  | nil => rfl
  | append_singleton s b ih =>
    have step : word (s ++ [b]) = (word s <<< 8) ||| b.toUInt32 := by simp [word]
    have low := b.toNat_lt
    have shifted : (word s).toNat <<< 8 % 2 ^ 32 = 2 ^ 8 * (value s % 2 ^ 24) := by
      rw [Nat.shiftLeft_eq, ih]
      omega
    rw [step, UInt32.toNat_or, UInt32.toNat_shiftLeft, UInt8.toNat_toUInt32, value_append_singleton]
    change (word s).toNat <<< 8 % 2 ^ 32 ||| b.toNat = _
    rw [shifted, ← Nat.two_pow_add_eq_or_of_lt (by omega)]
    omega

theorem word_toNat {s : Octets} (h : s.length ≤ 4) : (word s).toNat = value s := by
  rw [word_toNat_mod, Nat.mod_eq_of_lt]
  exact Nat.lt_of_lt_of_le (value_lt s) (Nat.pow_le_pow_right (by omega) h)

def announce (count : Nat) : UInt8 := 0x80 ||| .ofNat count

theorem announce_long : ∀ count < 128, announce count &&& 0x80 ≠ 0 := by decide

theorem announce_count : ∀ count < 128, (announce count &&& 0x7F).toNat = count := by decide

theorem eq_announce (b : UInt8) (long : b &&& 0x80 ≠ 0) : b = announce (b &&& 0x7F).toNat := by
  have all : ∀ n < 256, UInt8.ofNat n &&& 0x80 ≠ 0 →
      UInt8.ofNat n = announce (UInt8.ofNat n &&& 0x7F).toNat := by decide +kernel
  simpa using all b.toNat b.toNat_lt (by simpa using long)

theorem lt_of_short (b : UInt8) (short : b &&& 0x80 = 0) : b.toNat < 128 := by
  have all : ∀ n < 256, UInt8.ofNat n &&& 0x80 = 0 → n < 128 := by decide +kernel
  exact all b.toNat b.toNat_lt (by simpa using short)

theorem short_of_lt : ∀ n < 128, UInt8.ofNat n &&& 0x80 = 0 := by decide

/-- The octets that a length may be written with. -/
inductive Spells : Octets → Nat → Prop
  | short (b : UInt8) : b &&& 0x80 = 0 → Spells [b] b.toNat
  | long (ds : Octets) : ds ≠ [] → ds.length ≤ 4 → Spells (announce ds.length :: ds) (value ds)

theorem Spells.lt {l : Octets} {n : Nat} (h : Spells l n) : n < 2 ^ 32 := by
  cases h with
  | short b => exact Nat.lt_trans b.toNat_lt (by decide)
  | long ds _ few => exact Nat.lt_of_lt_of_le (value_lt ds) (Nat.pow_le_pow_right (by omega) few)

theorem digits_ne_nil {n : Nat} (positive : 0 < n) : digits n ≠ [] := by
  rw [digits, if_neg (by omega)]
  simp

theorem encode_short {n : Nat} (small : n < 128) : encode n = [.ofNat n] := if_pos small

theorem encode_long {n : Nat} (large : 128 ≤ n) :
    encode n = announce (digits n).length :: digits n := by
  rw [encode, if_neg (by omega), announce]

theorem spells_encode {n : Nat} (h : n < 2 ^ 32) : Spells (encode n) n := by
  rcases Nat.lt_or_ge n 128 with small | large
  · have spelled := Spells.short (.ofNat n) (short_of_lt n small)
    rw [UInt8.toNat_ofNat', Nat.mod_eq_of_lt (by omega)] at spelled
    rwa [encode_short small]
  · have spelled := Spells.long (digits n) (digits_ne_nil (by omega)) (digits_length_le h)
    rw [value_digits] at spelled
    rwa [encode_long large]

theorem encode_length_le_digits (ds : Octets) : (encode (value ds)).length ≤ ds.length + 1 := by
  unfold encode
  split
  · simp
  · have := digits_length_le (value_lt ds)
    simpa using this

theorem Spells.encode_length_le {l : Octets} {n : Nat} (h : Spells l n) :
    (encode n).length ≤ l.length := by
  cases h with
  | short b clear => simp [encode, lt_of_short b clear]
  | long ds nonempty few => exact encode_length_le_digits ds

theorem encode_length_mono {m n : Nat} (h : m ≤ n) : (encode m).length ≤ (encode n).length := by
  unfold encode
  split
  · split <;> simp
  · rw [if_neg (by omega)]
    have bound := value_lt (digits n)
    rw [value_digits] at bound
    simpa using digits_length_le (Nat.lt_of_le_of_lt h bound)

end Ldap.Ber.Length
