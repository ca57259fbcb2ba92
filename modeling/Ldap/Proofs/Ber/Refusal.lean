import Ldap.Proofs.Ber.Element

/-! Refusals. Each names the octets that were read before the fault, what is left unread, and the
fault. An element that is refused has been read up to the end of its length at most. -/
namespace Ldap.Ber.Reader

section
variable {α β : Type} {x : Reader α} {f : α → Reader β} {s rest : Octets} {e fault : Error}

@[simp] theorem bind_error : (x >>= f) s = .error e rest ↔
    x s = .error e rest ∨ ∃ a unread, x s = .ok a unread ∧ f a unread = .error e rest := by
  simp only [bind, EStateM.bind]
  cases x s <;> simp

theorem pure_error {a : α} : ¬ (pure a : Reader α) s = .error e rest := by
  simp [pure, EStateM.pure]

@[simp] theorem throw_error :
    (throw fault : Reader α) s = .error e rest ↔ fault = e ∧ s = rest := by
  change EStateM.Result.error fault s = .error e rest ↔ _
  simp

end

section
variable {s rest : Octets} {e : Error}

@[simp] theorem octet_error :
    octet s = .error e rest ↔ s = [] ∧ rest = [] ∧ e = .truncated 1 0 := by
  cases s with
  | nil => simp [octet, eq_comm, and_comm]
  | cons b s => simp [octet]

@[simp] theorem take_error {n : Nat} :
    take n s = .error e rest ↔ s = rest ∧ rest.length < n ∧ e = .truncated n rest.length := by
  unfold take
  split
  · rename_i short
    simp only [List.length_take] at short
    simp only [EStateM.Result.error.injEq]
    constructor
    · rintro ⟨rfl, rfl⟩
      exact ⟨rfl, by omega, rfl⟩
    · rintro ⟨rfl, -, rfl⟩
      exact ⟨rfl, rfl⟩
  · rename_i long
    simp only [List.length_take] at long
    simp only [reduceCtorEq, false_iff]
    rintro ⟨rfl, short, -⟩
    omega

inductive TagRefused : Octets → Octets → Error → Prop
  | missing : TagRefused [] [] (.truncated 1 0)
  | multiOctet (t : Tag) (rest : Octets) : Tag.isMultiOctet t = true →
    TagRefused [t] rest (.highTagNumber t)

inductive LengthRefused : Octets → Octets → Error → Prop
  | missing : LengthRefused [] [] (.truncated 1 0)
  | indefinite (rest : Octets) : LengthRefused [Length.announce 0] rest .indefiniteLength
  | tooLarge (count : Nat) (rest : Octets) : 4 < count → count < 128 →
      LengthRefused [Length.announce count] rest (.lengthTooLarge count)
  | fewDigits (count : Nat) (rest : Octets) : 0 < count → count ≤ 4 → rest.length < count →
      LengthRefused [Length.announce count] rest (.truncated count rest.length)

/-- A content is never begun: where fewer octets are left than its length tells, they are all
left. -/
inductive ElementRefused : Octets → Octets → Error → Prop
  | tag {header rest : Octets} {e : Error} : TagRefused header rest e → ElementRefused header rest e
  | length {header rest : Octets} {e : Error} (t : Tag) : Tag.isMultiOctet t = false →
      LengthRefused header rest e → ElementRefused (t :: header) rest e
  | content {l : Octets} {n : Nat} (t : Tag) (rest : Octets) : Tag.isMultiOctet t = false →
    Length.Spells l n →
      rest.length < n → ElementRefused (t :: l) rest (.truncated n rest.length)

theorem tag_error_iff :
    tag s = .error e rest ↔ ∃ header, TagRefused header rest e ∧ s = header ++ rest := by
  rw [tag, bind_error]
  constructor
  · rintro (missing | ⟨t, unread, front, refused⟩)
    · obtain ⟨rfl, rfl, rfl⟩ := octet_error.1 missing
      exact ⟨[], .missing, rfl⟩
    · rw [octet_ok.1 front]
      split at refused
      · rename_i multi
        obtain ⟨rfl, rfl⟩ := throw_error.1 refused
        exact ⟨[t], .multiOctet t unread multi, rfl⟩
      · exact absurd refused pure_error
  · rintro ⟨header, refused, rfl⟩
    cases refused with
    | missing => exact .inl rfl
    | multiOctet t rest multi =>
      refine .inr ⟨t, rest, rfl, ?_⟩
      rw [if_pos multi]
      rfl

theorem lengthFrom_error {first : UInt8} (refused : lengthFrom first s = .error e rest) :
    LengthRefused [first] rest e ∧ s = rest := by
  have announced : (first &&& 0x7F).toNat < 128 := by
    have bound : first.toNat &&& 127 ≤ 127 := Nat.and_le_right
    rw [UInt8.toNat_and]
    exact Nat.lt_succ_of_le bound
  unfold lengthFrom at refused
  split at refused
  · exact absurd refused pure_error
  · rename_i long
    rw [Length.eq_announce first long]
    generalize (first &&& 0x7F).toNat = count at refused announced
    split at refused
    · rename_i none
      obtain ⟨rfl, rfl⟩ := throw_error.1 refused
      rw [none]
      exact ⟨.indefinite s, rfl⟩
    · split at refused
      · rename_i many
        obtain ⟨rfl, rfl⟩ := throw_error.1 refused
        exact ⟨.tooLarge count s many announced, rfl⟩
      · rcases bind_error.1 refused with short | ⟨digits, unread, -, read⟩
        · obtain ⟨rfl, fewer, rfl⟩ := take_error.1 short
          exact ⟨.fewDigits count s (by omega) (by omega) fewer, rfl⟩
        · exact absurd read pure_error

theorem length_error_iff :
    length s = .error e rest ↔ ∃ header, LengthRefused header rest e ∧ s = header ++ rest := by
  constructor
  · intro refused
    rcases bind_error.1 refused with missing | ⟨first, unread, front, refused⟩
    · obtain ⟨rfl, rfl, rfl⟩ := octet_error.1 missing
      exact ⟨[], .missing, rfl⟩
    · obtain ⟨header, rfl⟩ := lengthFrom_error refused
      exact ⟨[first], header, octet_ok.1 front⟩
  · rintro ⟨header, refused, rfl⟩
    cases refused with
    | missing => rfl
    | indefinite => rfl
    | tooLarge count rest many fits => exact length_announce many fits rest
    | fewDigits count rest some_digit few short =>
      refine bind_error.2 (.inr ⟨Length.announce count, rest, rfl, ?_⟩)
      have announced := Length.announce_count count (by omega)
      unfold lengthFrom
      rw [if_neg (Length.announce_long count (by omega)), announced, if_neg (by omega),
        if_neg (by omega)]
      exact bind_error.2 (.inl (take_error.2 ⟨rfl, short, rfl⟩))

theorem element_error_iff :
    element s = .error e rest ↔ ∃ header, ElementRefused header rest e ∧ s = header ++ rest := by
  constructor
  · intro whole
    rcases bind_error.1 whole with noTag | ⟨t, afterTag, readTag, behindTag⟩
    · obtain ⟨header, refused, split⟩ := tag_error_iff.1 noTag
      exact ⟨header, .tag refused, split⟩
    obtain ⟨front, single⟩ := tag_ok.1 readTag
    rcases bind_error.1 behindTag with noLength | ⟨n, afterLength, readLength, behindLength⟩
    · obtain ⟨header, refused, split⟩ := length_error_iff.1 noLength
      exact ⟨t :: header, .length t single refused, by rw [front, split]; rfl⟩
    obtain ⟨l, spelled, split⟩ := length_iff.1 readLength
    rcases bind_error.1 behindLength with short | ⟨content, unread, -, read⟩
    · obtain ⟨rfl, fewer, rfl⟩ := take_error.1 short
      exact ⟨t :: l, .content t afterLength single spelled fewer, by rw [front, split]; rfl⟩
    · exact absurd read pure_error
  · rintro ⟨header, refused, rfl⟩
    cases refused with
    | tag refused => exact bind_error.2 (.inl (tag_error_iff.2 ⟨header, refused, rfl⟩))
    | @length header _ _ t single refused =>
      refine bind_error.2 (.inr ⟨t, header ++ rest, tag_ok.2 ⟨rfl, single⟩, ?_⟩)
      exact bind_error.2 (.inl (length_error_iff.2 ⟨header, refused, rfl⟩))
    | @content l n t rest single spelled fewer =>
      refine bind_error.2 (.inr ⟨t, l ++ rest, tag_ok.2 ⟨rfl, single⟩, ?_⟩)
      refine bind_error.2 (.inr ⟨n, rest, length_iff.2 ⟨l, spelled, rfl⟩, ?_⟩)
      exact bind_error.2 (.inl (take_error.2 ⟨rfl, fewer, rfl⟩))

end

end Ldap.Ber.Reader
