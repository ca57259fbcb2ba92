import Ldap.Proofs.Text.Base64
import Mathlib.Algebra.Group.Nat.Defs
import Mathlib.Data.List.DropRight

/-! The texts that spell octets in base64. Each octet string has one, and `Canonical` says without
the writer which texts these are: symbols of six bits, filled up to groups of four, with no bits
left over. What a JSON field holds is read by this spelling or not at all, white space around it
aside. -/
namespace Ldap.Text

theorem dropWhile_clear {text : List Char} (inside : ∀ c ∈ text, isBlank c = false)
    (nonempty : text ≠ []) (rest : List Char) :
    (text ++ rest).dropWhile isBlank = text ++ rest := by
  cases text with
  | nil => exact absurd rfl nonempty
  | cons c text => simp [inside c List.mem_cons_self]

theorem trim_surrounded {before text after : List Char} (inside : ∀ c ∈ text, isBlank c = false)
    (front : ∀ c ∈ before, isBlank c = true) (back : ∀ c ∈ after, isBlank c = true) :
    trim (before ++ text ++ after) = text := by
  rw [trim, List.append_assoc, List.dropWhile_append_of_pos front]
  by_cases empty : text = []
  · have blank : after.dropWhile isBlank = [] := List.dropWhile_eq_nil_iff.2 back
    rw [empty, List.nil_append, blank]
    rfl
  · have inside' : ∀ c ∈ text.reverse, isBlank c = false := by simpa using inside
    have back' : ∀ c ∈ after.reverse, isBlank c = true := by simpa using back
    have last := dropWhile_clear inside' (by simpa using empty) []
    rw [List.append_nil] at last
    rw [dropWhile_clear inside empty, List.reverse_append, List.dropWhile_append_of_pos back', last,
      List.reverse_reverse]

namespace Base64

theorem value?_eq_some_iff {c : Char} {n : Nat} : value? c = some n ↔ n < 64 ∧ c = symbol n := by
  constructor
  · intro read
    have spelled : n < 64 ∧ symbol n = Char.ofNat c.toNat := by
      unfold value? at read
      dsimp only at read
      split_ifs at read
      all_goals cases read
      all_goals refine ⟨by omega, congrArg Char.ofNat ?_⟩
      all_goals split_ifs <;> omega
    rw [Char.ofNat_toNat] at spelled
    exact ⟨spelled.1, spelled.2.symm⟩
  · rintro ⟨bound, rfl⟩
    exact value?_symbol n bound

theorem symbol_injective {m n : Nat} (hm : m < 64) (hn : n < 64) (same : symbol m = symbol n) :
    m = n := by
  have values := congrArg value? same
  rw [value?_symbol m hm, value?_symbol n hn] at values
  exact Option.some.inj values

section
variable {x y z w : Nat}

theorem encode_one (hx : x < 64) (hy : y < 64) (zero : y % 16 = 0) :
    encode [.ofNat (x * 4 + y / 16)] = [symbol x, symbol y, '=', '='] := by
  obtain ⟨first, second, -, -⟩ := (group_iff hx hy (by decide : 0 < 64) (by decide : 0 < 64)).1
    ⟨rfl, congrArg UInt8.ofNat (by omega : 0 = _), rfl⟩
  rw [encode, ← first]
  exact congrArg (fun n => [symbol x, symbol n, '=', '=']) second.symm

theorem encode_two (hx : x < 64) (hy : y < 64) (hz : z < 64) (zero : z % 4 = 0) :
    encode [.ofNat (x * 4 + y / 16), .ofNat (y % 16 * 16 + z / 4)] =
      [symbol x, symbol y, symbol z, '='] := by
  obtain ⟨first, second, third, -⟩ := (group_iff hx hy hz (by decide : 0 < 64)).1
    ⟨rfl, rfl, congrArg UInt8.ofNat (by omega : 0 = _)⟩
  rw [encode, ← first, ← second]
  exact congrArg (fun n => [symbol x, symbol y, symbol n, '=']) third.symm

theorem encode_three (hx : x < 64) (hy : y < 64) (hz : z < 64) (hw : w < 64) (rest : Octets) :
    encode (.ofNat (x * 4 + y / 16) :: .ofNat (y % 16 * 16 + z / 4) ::
        .ofNat (z % 4 * 64 + w) :: rest) =
      symbol x :: symbol y :: symbol z :: symbol w :: encode rest := by
  obtain ⟨first, second, third, fourth⟩ := (group_iff hx hy hz hw).1 ⟨rfl, rfl, rfl⟩
  rw [encode, ← first, ← second, ← third, ← fourth]

end

theorem eq_encode_of_decode? {t : List Char} {s : Octets} (read : decode? t = some s) :
    t = encode s := by
  induction t using decode?.induct generalizing s with
  | case1 =>
    rw [decode?] at read
    cases read
    rfl
  | case2 a b =>
    simp only [decode?, one?, Option.bind_eq_bind, Option.bind_eq_some_iff,
      value?_eq_some_iff] at read
    obtain ⟨x, ⟨hx, rfl⟩, y, ⟨hy, rfl⟩, read⟩ := read
    split at read
    · rename_i zero
      cases read
      exact (encode_one hx hy zero).symm
    · cases read
  | case3 a b c symbols =>
    rw [decode?] at read
    swap
    · exact symbols
    simp only [two?, Option.bind_eq_bind, Option.bind_eq_some_iff, value?_eq_some_iff] at read
    obtain ⟨x, ⟨hx, rfl⟩, y, ⟨hy, rfl⟩, z, ⟨hz, rfl⟩, read⟩ := read
    split at read
    · rename_i zero
      cases read
      exact (encode_two hx hy hz zero).symm
    · cases read
  | case4 a b c d rest one two ih =>
    rw [decode?] at read
    rotate_left
    · exact one
    · exact two
    simp only [Option.bind_eq_bind, Option.bind_eq_some_iff, value?_eq_some_iff, Option.pure_def,
      Option.some.injEq] at read
    obtain ⟨x, ⟨hx, rfl⟩, y, ⟨hy, rfl⟩, z, ⟨hz, rfl⟩, w, ⟨hw, rfl⟩, octets, read, rfl⟩ := read
    rw [encode_three hx hy hz hw, ← ih read]
  | case5 t nil one two three =>
    rw [decode?] at read
    · cases read
    · exact nil
    · exact one
    · exact two
    · exact three

theorem decode?_eq_some_iff {t : List Char} {s : Octets} : decode? t = some s ↔ t = encode s := by
  constructor
  · exact eq_encode_of_decode?
  · rintro rfl
    exact decode?_encode s

/-- Symbols of six bits each, and filling for whole groups of four symbols, at most two. The bits
of the last symbol that are not needed for whole octets, two for each place that is filled, are
zero. -/
inductive Canonical : List Char → Prop
  | intro {sextets : List Nat} {fill : Nat} :
    (∀ n ∈ sextets, n < 64) → (sextets.length + fill) % 4 = 0 → fill ≤ 2 →
      (∀ n ∈ sextets.getLast?, n % 4 ^ fill = 0) →
        Canonical (sextets.map symbol ++ List.replicate fill '=')

theorem Canonical.group {x y z w : Nat} {t : List Char} (hx : x < 64) (hy : y < 64) (hz : z < 64)
    (hw : w < 64) (h : Canonical t) :
    Canonical (symbol x :: symbol y :: symbol z :: symbol w :: t) := by
  cases h with
  | @intro sextets fill symbols whole short zero =>
    refine @Canonical.intro (x :: y :: z :: w :: sextets) fill ?_ ?_ short ?_
    · simpa [hx, hy, hz, hw] using symbols
    · simp only [List.length_cons]
      omega
    · cases sextets with
      | nil =>
        have none : fill = 0 := by
          rw [List.length_nil] at whole
          omega
        simp [none, Nat.mod_one]
      | cons v sextets => simpa using zero

theorem canonical_encode (s : Octets) : Canonical (encode s) := by
  induction s using encode.induct with
  | case1 => exact @Canonical.intro [] 0 (by simp) rfl (by omega) (by simp)
  | case2 a =>
    obtain ⟨hx, hy, -, -⟩ := sextets_lt a 0 0
    refine @Canonical.intro [a.toNat / 4, a.toNat % 4 * 16] 2 ?_ (by simp) (by omega) ?_
    · simp only [List.forall_mem_cons]
      exact ⟨hx, hy, by simp⟩
    · simp
  | case3 a b =>
    obtain ⟨hx, hy, hz, -⟩ := sextets_lt a b 0
    refine @Canonical.intro
      [a.toNat / 4, a.toNat % 4 * 16 + b.toNat / 16, b.toNat % 16 * 4] 1 ?_ (by simp) (by omega) ?_
    · simp only [List.forall_mem_cons]
      exact ⟨hx, hy, hz, by simp⟩
    · simp
  | case4 a b c rest ih =>
    obtain ⟨hx, hy, hz, hw⟩ := sextets_lt a b c
    exact ih.group hx hy hz hw

theorem exists_encode (sextets : List Nat) (fill : Nat) (symbols : ∀ n ∈ sextets, n < 64)
    (whole : (sextets.length + fill) % 4 = 0) (short : fill ≤ 2)
    (zero : ∀ n ∈ sextets.getLast?, n % 4 ^ fill = 0) :
    ∃ s, encode s = sextets.map symbol ++ List.replicate fill '=' := by
  match sextets with
  | [] =>
    have none : fill = 0 := by
      rw [List.length_nil] at whole
      omega
    exact ⟨[], by rw [none]; rfl⟩
  | [_] =>
    rw [List.length_singleton] at whole
    omega
  | [x, y] =>
    simp only [List.forall_mem_cons] at symbols
    have two : fill = 2 := by
      simp only [List.length_cons, List.length_nil] at whole
      omega
    subst two
    exact ⟨_, encode_one symbols.1 symbols.2.1 (zero y rfl)⟩
  | [x, y, z] =>
    simp only [List.forall_mem_cons] at symbols
    have one : fill = 1 := by
      simp only [List.length_cons, List.length_nil] at whole
      omega
    subst one
    exact ⟨_, encode_two symbols.1 symbols.2.1 symbols.2.2.1 (zero z rfl)⟩
  | x :: y :: z :: w :: rest =>
    simp only [List.forall_mem_cons] at symbols
    obtain ⟨hx, hy, hz, hw, symbols⟩ := symbols
    have others : ∀ n ∈ rest.getLast?, n % 4 ^ fill = 0 := by
      intro n last
      refine zero n ?_
      cases rest with
      | nil => cases last
      | cons v rest => simpa using last
    obtain ⟨s, read⟩ :=
      exists_encode rest fill symbols (by simp only [List.length_cons] at whole; omega) short others
    exact ⟨_, (encode_three hx hy hz hw s).trans (by rw [read]; rfl)⟩

theorem canonical_iff {t : List Char} : Canonical t ↔ ∃ s, t = encode s := by
  constructor
  · rintro ⟨symbols, whole, short, zero⟩
    obtain ⟨s, written⟩ := exists_encode _ _ symbols whole short zero
    exact ⟨s, written.symm⟩
  · rintro ⟨s, rfl⟩
    exact canonical_encode s

theorem rdropWhile_append_fill (t : List Char) (fill : Nat) :
    (t ++ List.replicate fill '=').rdropWhile (· = '=') = t.rdropWhile (· = '=') := by
  induction fill with
  | zero => simp
  | succ fill ih =>
    rw [List.replicate_succ', ← List.append_assoc, List.rdropWhile_concat_pos _ _ _ (by simp), ih]

theorem fill_not_mem {sextets : List Nat} (symbols : ∀ n ∈ sextets, n < 64) :
    '=' ∉ sextets.map symbol := by
  intro there
  obtain ⟨n, member, same⟩ := List.mem_map.1 there
  exact symbol_ne_fill n (symbols n member) same

theorem rdropWhile_symbols {sextets : List Nat} (symbols : ∀ n ∈ sextets, n < 64) :
    (sextets.map symbol).rdropWhile (· = '=') = sextets.map symbol := by
  rw [List.rdropWhile_eq_self_iff]
  intro nonempty last
  exact fill_not_mem symbols (of_decide_eq_true last ▸ List.getLast_mem nonempty)

theorem symbol_standard : ∀ n < 64, symbol n ≠ '-' ∧ symbol n ≠ '_' := by decide

namespace Canonical
variable {t front back : List Char} {c : Char} {n fill : Nat}

theorem symbol_or_fill (h : Canonical t) (member : c ∈ t) : c = '=' ∨ ∃ n < 64, c = symbol n := by
  obtain ⟨symbols, -, -, -⟩ := h
  rcases List.mem_append.1 member with symbol | filling
  · obtain ⟨n, there, rfl⟩ := List.mem_map.1 symbol
    exact .inr ⟨n, symbols n there, rfl⟩
  · exact .inl (List.eq_of_mem_replicate filling)

theorem length_whole (h : Canonical t) : t.length % 4 = 0 := by
  obtain ⟨-, whole, -, -⟩ := h
  rwa [List.length_append, List.length_map, List.length_replicate]

theorem fill_le (h : Canonical t) (same : t = front ++ List.replicate fill '=') : fill ≤ 2 := by
  obtain ⟨symbols, -, short, -⟩ := h
  have left := congrArg (List.rdropWhile (· = '=')) same
  rw [rdropWhile_append_fill, rdropWhile_append_fill, rdropWhile_symbols symbols] at left
  have within := (List.rdropWhile_prefix (· = '=') front).length_le
  have lengths := congrArg List.length same
  rw [← left] at within
  simp only [List.length_append, List.length_map, List.length_replicate] at within lengths
  omega

theorem fill_last (h : Canonical t) (same : t = front ++ '=' :: c :: back) : c = '=' := by
  obtain ⟨symbols, -, -, -⟩ := h
  rcases List.append_eq_append_iff.1 same with ⟨middle, -, filling⟩ | ⟨middle, inside, filled⟩
  · have member : c ∈ middle ++ '=' :: c :: back := by simp
    rw [← filling] at member
    exact List.eq_of_mem_replicate member
  · cases middle with
    | nil =>
      have member : c ∈ '=' :: c :: back := by simp
      rw [filled] at member
      exact List.eq_of_mem_replicate member
    | cons d middle =>
      obtain ⟨rfl, -⟩ := List.cons.inj filled
      exact absurd (inside ▸ by simp) (fill_not_mem symbols)

theorem bits_zero (h : Canonical t) (bound : n < 64)
    (same : t = front ++ symbol n :: List.replicate fill '=') :
    n % 4 ^ fill = 0 := by
  obtain ⟨symbols, -, -, zero⟩ := h
  rename_i sextets count
  rw [List.append_cons] at same
  have left := congrArg (List.rdropWhile (· = '=')) same
  rw [rdropWhile_append_fill, rdropWhile_append_fill, rdropWhile_symbols symbols,
    List.rdropWhile_concat_neg _ _ _ (by simpa using symbol_ne_fill n bound)] at left
  have count_eq : count = fill := by
    have lengths := congrArg List.length same
    rw [left] at lengths
    simpa using lengths
  have last := congrArg List.getLast? left
  rw [List.getLast?_map, List.getLast?_concat, Option.map_eq_some_iff] at last
  obtain ⟨m, there, equal⟩ := last
  have member := List.mem_of_getLast? there
  rw [← symbol_injective (symbols m member) bound equal, ← count_eq]
  exact zero m there

end Canonical

/-- Texts that only look like base64. -/
inductive Flawed : List Char → Prop
  | foreign {t : List Char} {c : Char} : c ∈ t → isBlank c = true ∨ c = '-' ∨ c = '_' → Flawed t
  | uneven {t : List Char} : t.length % 4 ≠ 0 → Flawed t
  | overfilled (front : List Char) {fill : Nat} : 2 < fill →
    Flawed (front ++ List.replicate fill '=')
  | filledInside (front back : List Char) {c : Char} : c ≠ '=' → Flawed (front ++ '=' :: c :: back)
  | loose (front : List Char) {n fill : Nat} : n < 64 → n % 4 ^ fill ≠ 0 →
      Flawed (front ++ symbol n :: List.replicate fill '=')

theorem Flawed.not_canonical {t : List Char} (flawed : Flawed t) : ¬ Canonical t := by
  intro canonical
  cases flawed with
  | @foreign _ c member kind =>
    rcases canonical.symbol_or_fill member with rfl | ⟨n, bound, rfl⟩
    · revert kind
      decide
    · rw [symbol_not_blank n bound] at kind
      simp [symbol_standard n bound] at kind
  | uneven odd => exact odd canonical.length_whole
  | overfilled front many => exact absurd (canonical.fill_le rfl) (by omega)
  | filledInside front back other => exact other (canonical.fill_last rfl)
  | loose front bound bits => exact bits (canonical.bits_zero bound rfl)

end Base64
end Ldap.Text

namespace Ldap.Json.Fields
open Text

theorem ofBase64_ok_iff {name text : String} {s : Octets} :
    ofBase64 name text = .ok s ↔ trim text.toList = Base64.encode s := by
  rw [← Base64.decode?_eq_some_iff, ofBase64]
  cases Base64.decode? (trim text.toList) <;> simp

theorem ofBase64_fault {name text : String} {e : DecodeError}
    (fault : ofBase64 name text = .error e) :
    e = .typeMismatch name .base64 := by
  unfold ofBase64 at fault
  split at fault
  · cases fault
  · cases fault
    rfl

/-- The text of a field is read as octets if and only if it is their spelling with white space
around it or none; every other text is refused under the name of the field. So each octet string
is read from its own spelling, and from one text only. Which texts are read is told by the
grammar: white space inside, missing or superfluous filling, bits left over and symbols of another
alphabet are all refused. -/
theorem octets_have_one_spelling (name text : String) :
    (∀ s, ofBase64 name text = .ok s ↔ trim text.toList = Base64.encode s) ∧
    ((∀ s, trim text.toList ≠ Base64.encode s) →
      ofBase64 name text = .error (.typeMismatch name .base64)) ∧
    (∀ before after s, (∀ c ∈ before, isBlank c = true) → (∀ c ∈ after, isBlank c = true) →
      ofBase64 name (.ofList (before ++ Base64.encode s ++ after)) = .ok s) ∧
    (∀ other s, ofBase64 name text = .ok s → ofBase64 name other = .ok s →
      trim text.toList = trim other.toList) ∧
    ((∃ s, ofBase64 name text = .ok s) ↔ Base64.Canonical (trim text.toList)) ∧
    (Base64.Flawed (trim text.toList) →
      ofBase64 name text = .error (.typeMismatch name .base64)) := by
  have refused (never : ∀ s, trim text.toList ≠ Base64.encode s) :
      ofBase64 name text = .error (.typeMismatch name .base64) := by
    cases outcome : ofBase64 name text with
    | ok s => exact absurd (ofBase64_ok_iff.1 outcome) (never s)
    | error e => rw [ofBase64_fault outcome]
  refine ⟨fun s => ofBase64_ok_iff, refused, fun before after s front back => ?_,
    fun other s here there => ?_, ?_, fun flawed => refused fun s written => ?_⟩
  · rw [ofBase64_ok_iff, String.toList_ofList]
    exact trim_surrounded (Base64.encode_not_blank s) front back
  · rw [ofBase64_ok_iff.1 here, ofBase64_ok_iff.1 there]
  · simp only [ofBase64_ok_iff, Base64.canonical_iff]
  · exact flawed.not_canonical (Base64.canonical_iff.2 ⟨s, written⟩)

theorem loose_bit_refused :
    ofBase64 "cookie" " AQI=\n" = .ok [1, 2] ∧ trim " AQI=\n".toList = trim "AQI=".toList ∧
    Base64.Flawed (trim "AQJ=".toList) ∧
    ofBase64 "cookie" "AQJ=" = .error (.typeMismatch "cookie" .base64) ∧
    (∀ s, trim "AQI".toList ≠ Base64.encode s) ∧
    ofBase64 "cookie" "AQI" = .error (.typeMismatch "cookie" .base64) ∧
    Base64.Flawed (trim "-_==".toList) ∧
    ofBase64 "cookie" "-_==" = .error (.typeMismatch "cookie" .base64) := by
  have spaced : ofBase64 "cookie" " AQI=\n" = .ok [1, 2] :=
    (octets_have_one_spelling "cookie" " AQI=\n").2.2.1 [' '] ['\n'] [1,
      2] (List.forall_mem_singleton.2 rfl)
      (List.forall_mem_singleton.2 rfl)
  have plain : ofBase64 "cookie" "AQI=" = .ok [1, 2] := by decide
  have bits : Base64.Flawed (trim "AQJ=".toList) :=
    @Base64.Flawed.loose ['A', 'Q'] 9 1 (by decide) (by decide)
  have uneven : Base64.Flawed (trim "AQI".toList) := .uneven (by decide)
  have never : ∀ s, trim "AQI".toList ≠ Base64.encode s := fun s written =>
    uneven.not_canonical (Base64.canonical_iff.2 ⟨s, written⟩)
  have foreign : Base64.Flawed (trim "-_==".toList) :=
    @Base64.Flawed.foreign _ '-' (by decide) (.inr (.inl rfl))
  exact ⟨spaced, (octets_have_one_spelling "cookie" " AQI=\n").2.2.2.1 _ _ spaced plain,
    bits, (octets_have_one_spelling "cookie" "AQJ=").2.2.2.2.2 bits,
    never, (octets_have_one_spelling "cookie" "AQI").2.1 never,
    foreign, (octets_have_one_spelling "cookie" "-_==").2.2.2.2.2 foreign⟩

end Ldap.Json.Fields
