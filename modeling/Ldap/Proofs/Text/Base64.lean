import Ldap.Json.Fields

/-! Octets in base64 and back. The spelling has no blanks, so that trimming leaves it as it is. -/
namespace Ldap.Text

theorem trim_eq_self {s : List Char} (h : ∀ c ∈ s, isBlank c = false) : trim s = s := by
  have kept (s : List Char) (h : ∀ c ∈ s, isBlank c = false) : s.dropWhile isBlank = s := by
    cases s with
    | nil => rfl
    | cons c s => simp [h c List.mem_cons_self]
  have back : ∀ c ∈ s.reverse, isBlank c = false := by simpa using h
  rw [trim, kept s h, kept s.reverse back, List.reverse_reverse]

namespace Base64

theorem value?_symbol : ∀ n < 64, value? (symbol n) = some n := by decide

theorem symbol_ne_fill : ∀ n < 64, symbol n ≠ '=' := by decide

theorem symbol_not_blank : ∀ n < 64, isBlank (symbol n) = false := by decide

theorem sextets_lt (a b c : UInt8) : a.toNat / 4 < 64 ∧ a.toNat % 4 * 16 + b.toNat / 16 < 64 ∧
    b.toNat % 16 * 4 + c.toNat / 64 < 64 ∧ c.toNat % 64 < 64 := by
  have := a.toNat_lt
  have := b.toNat_lt
  have := c.toNat_lt
  omega

/-- The same 24 bits as three octets and as four sextets. Shorter groups have zeros in their last
places. -/
theorem group_iff {a b c : UInt8} {x y z w : Nat} (hx : x < 64) (hy : y < 64) (hz : z < 64)
    (hw : w < 64) :
    (a = .ofNat (x * 4 + y / 16) ∧ b = .ofNat (y % 16 * 16 + z / 4) ∧
      c = .ofNat (z % 4 * 64 + w)) ↔
    x = a.toNat / 4 ∧ y = a.toNat % 4 * 16 + b.toNat / 16 ∧
      z = b.toNat % 16 * 4 + c.toNat / 64 ∧ w = c.toNat % 64 := by
  have := a.toNat_lt
  have := b.toNat_lt
  have := c.toNat_lt
  simp only [← UInt8.toNat_inj, UInt8.toNat_ofNat']
  omega

theorem mem_encode {s : Octets} : ∀ c ∈ encode s, c = '=' ∨ ∃ n < 64, c = symbol n := by
  induction s using encode.induct with
  | case1 => simp [encode]
  | case2 a =>
    obtain ⟨x, y, -, -⟩ := sextets_lt a 0 0
    simp only [encode, List.forall_mem_cons]
    exact ⟨.inr ⟨_, x, rfl⟩, .inr ⟨_, y, rfl⟩, .inl trivial, .inl trivial, by simp⟩
  | case3 a b =>
    obtain ⟨x, y, z, -⟩ := sextets_lt a b 0
    simp only [encode, List.forall_mem_cons]
    exact ⟨.inr ⟨_, x, rfl⟩, .inr ⟨_, y, rfl⟩, .inr ⟨_, z, rfl⟩, .inl trivial, by simp⟩
  | case4 a b c rest ih =>
    obtain ⟨x, y, z, w⟩ := sextets_lt a b c
    simp only [encode, List.forall_mem_cons]
    exact ⟨.inr ⟨_, x, rfl⟩, .inr ⟨_, y, rfl⟩, .inr ⟨_, z, rfl⟩, .inr ⟨_, w, rfl⟩, ih⟩

theorem encode_not_blank (s : Octets) : ∀ c ∈ encode s, isBlank c = false := by
  intro c member
  rcases mem_encode c member with rfl | ⟨n, bound, rfl⟩
  · decide
  · exact symbol_not_blank n bound

@[simp] theorem trim_encode (s : Octets) : trim (encode s) = encode s :=
  trim_eq_self (encode_not_blank s)

@[simp] theorem decode?_encode (s : Octets) : decode? (encode s) = some s := by
  induction s using encode.induct with
  | case1 => rfl
  | case2 a =>
    obtain ⟨hx, hy, hz, hw⟩ := sextets_lt a 0 0
    have first : a = .ofNat (a.toNat / 4 * 4 + a.toNat % 4 * 16 / 16) :=
      ((group_iff hx hy hz hw).2 ⟨rfl, rfl, rfl, rfl⟩).1
    have hy : a.toNat % 4 * 16 < 64 := hy
    rw [encode, decode?, value?_symbol _ hx, value?_symbol _ hy]
    simp only [Option.bind_eq_bind, Option.bind_some, one?, ← first]
    rw [if_pos (by omega)]
  | case3 a b =>
    obtain ⟨hx, hy, hz, hw⟩ := sextets_lt a b 0
    obtain ⟨first, second, -⟩ := (group_iff hx hy hz hw).2 ⟨rfl, rfl, rfl, rfl⟩
    have second : b = .ofNat ((a.toNat % 4 * 16 + b.toNat / 16) % 16 * 16 + b.toNat % 16 * 4 / 4) :=
      second
    have hz : b.toNat % 16 * 4 < 64 := hz
    rw [encode, decode?, value?_symbol _ hx, value?_symbol _ hy, value?_symbol _ hz]
    · simp only [Option.bind_eq_bind, Option.bind_some, two?, ← first, ← second]
      rw [if_pos (by omega)]
    · exact symbol_ne_fill _ hz
  | case4 a b c rest ih =>
    obtain ⟨hx, hy, hz, hw⟩ := sextets_lt a b c
    obtain ⟨first, second, third⟩ := (group_iff hx hy hz hw).2 ⟨rfl, rfl, rfl, rfl⟩
    have last := symbol_ne_fill _ hw
    rw [encode, decode?, value?_symbol _ hx, value?_symbol _ hy, value?_symbol _ hz,
      value?_symbol _ hw, ih]
    · simp only [Option.bind_eq_bind, Option.bind_some, ← first, ← second, ← third,
        Option.pure_def]
    · exact fun _ full _ => last full
    · exact fun full _ => last full

end Base64
end Ldap.Text

namespace Ldap.Json.Fields
open Text

@[simp] theorem ofBase64_encode (name : String) (s : Octets) :
    ofBase64 name (.ofList (Base64.encode s)) = .ok s := by
  simp [ofBase64]

end Ldap.Json.Fields
