import Ldap.Json.Basic
import Ldap.Text.Hex

/-! The tokens of a JSON text. Strings are decoded and numbers are read here. -/
namespace Ldap.Json

inductive Token where
  | openObject
  | closeObject
  | openArray
  | closeArray
  | colon
  | comma
  | string (s : String)
  | scalar (value : Json)

namespace Token

def isSpace (c : Char) : Bool := c == ' ' || c == '\n' || c == '\t' || c == '\r'

def hex4? (a b c d : Char) : Option Nat := do
  let high := 16 * (← Text.hexDigit? a) + (← Text.hexDigit? b)
  let low := 16 * (← Text.hexDigit? c) + (← Text.hexDigit? d)
  return 256 * high + low

def escaped? : Char → Option Char
  | '"' => some '"'
  | '\\' => some '\\'
  | '/' => some '/'
  | 'b' => some '\x08'
  | 'f' => some '\x0c'
  | 'n' => some '\n'
  | 'r' => some '\r'
  | 't' => some '\t'
  | _ => none

def isHighSurrogate (n : Nat) : Bool := 0xD800 ≤ n && n < 0xDC00
def isLowSurrogate (n : Nat) : Bool := 0xDC00 ≤ n && n < 0xE000

/-- The character after a backslash. Surrogates come in pairs only. -/
def escape? : List Char → Option (Char × List Char)
  | 'u' :: a :: b :: c :: d :: rest => do
    let n ← hex4? a b c d
    if isLowSurrogate n then none
    else if isHighSurrogate n then
      match rest with
      | '\\' :: 'u' :: a :: b :: c :: d :: rest => do
        let m ← hex4? a b c d
        if isLowSurrogate m then some (.ofNat (0x10000 + (n - 0xD800) * 0x400 + (m - 0xDC00)), rest)
        else none
      | _ => none
    else some (.ofNat n, rest)
  | c :: rest => (escaped? c).map (·, rest)
  | [] => none

theorem escape?_length {s rest : List Char} {c : Char} (h : escape? s = some (c, rest)) :
    rest.length < s.length := by
  unfold escape? at h
  split at h
  · simp only [Option.bind_eq_bind, Option.bind_eq_some_iff] at h
    obtain ⟨n, _, h⟩ := h
    split at h
    · exact absurd h (by simp)
    · split at h
      · split at h
        · simp only [Option.bind_eq_some_iff] at h
          obtain ⟨m, _, h⟩ := h
          split at h
          · simp only [Option.some.injEq, Prod.mk.injEq] at h
            obtain ⟨-, rfl⟩ := h
            simp only [List.length_cons]
            omega
          · exact absurd h (by simp)
        · exact absurd h (by simp)
      · simp only [Option.some.injEq, Prod.mk.injEq] at h
        obtain ⟨-, rfl⟩ := h
        simp only [List.length_cons]
        omega
  · simp only [Option.map_eq_some_iff, Prod.mk.injEq] at h
    obtain ⟨_, _, _, rfl⟩ := h
    simp
  · exact absurd h (by simp)

/-- A string up to its closing quote; `done` holds the characters before, last first. -/
def string? (done : List Char) (s : List Char) : Option (String × List Char) :=
  match s with
  | [] => none
  | '"' :: rest => some (.ofList done.reverse, rest)
  | '\\' :: rest =>
    match _h : escape? rest with
    | some (c, rest) => string? (c :: done) rest
    | none => none
  | c :: rest => if c.toNat < 0x20 then none else string? (c :: done) rest
termination_by s.length
decreasing_by
  · have := escape?_length _h; simp; omega
  · simp

def digits (s : List Char) : List Char × List Char :=
  (s.takeWhile Char.isDigit, s.dropWhile Char.isDigit)

def fraction? : List Char → Option (Option (List Char) × List Char)
  | '.' :: s => match digits s with
    | ([], _) => none
    | (ds, rest) => some (some ds, rest)
  | s => some (none, s)

def exponent? (s : List Char) : Option (Option Int × List Char) :=
  match s with
  | c :: t =>
    if c = 'e' ∨ c = 'E' then
      let (negative, t) := match t with
        | '-' :: t => (true, t)
        | '+' :: t => (false, t)
        | t => (false, t)
      match digits t with
      | ([], _) => none
      | (ds, rest) =>
        let n : Int := (Nat.ofDigitChars 10 ds 0 : Nat)
        some (some (if negative then -n else n), rest)
    else some (none, s)
  | [] => some (none, [])

/-- The digits before a fraction: a leading zero stands alone. -/
def isWhole (ds : List Char) : Bool := ds != [] && (ds.head? != some '0' || ds.length == 1)

def unsigned? (negative : Bool) (s : List Char) : Option (Number × List Char) :=
  let (whole, s) := digits s
  if isWhole whole then do
    let (fraction, s) ← fraction? s
    let (exponent, s) ← exponent? s
    let n ← Number.ofLiteral ⟨negative, whole, fraction, exponent⟩
    return (n, s)
  else none

def first? : List Char → Option (Token × List Char)
  | '\x7b' :: rest => some (.openObject, rest)
  | '\x7d' :: rest => some (.closeObject, rest)
  | '[' :: rest => some (.openArray, rest)
  | ']' :: rest => some (.closeArray, rest)
  | ':' :: rest => some (.colon, rest)
  | ',' :: rest => some (.comma, rest)
  | '"' :: rest => (string? [] rest).map fun (s, rest) => (.string s, rest)
  | 't' :: 'r' :: 'u' :: 'e' :: rest => some (.scalar (.bool true), rest)
  | 'f' :: 'a' :: 'l' :: 's' :: 'e' :: rest => some (.scalar (.bool false), rest)
  | 'n' :: 'u' :: 'l' :: 'l' :: rest => some (.scalar .null, rest)
  | '-' :: rest => (unsigned? true rest).map fun (n, rest) => (.scalar (.number n), rest)
  | s => (unsigned? false s).map fun (n, rest) => (.scalar (.number n), rest)

theorem string?_length {s rest done : List Char} {t : String}
    (h : string? done s = some (t, rest)) :
    rest.length < s.length := by
  fun_induction string? done s with
  | case1 => cases h
  | case2 => cases h; simp
  | case3 done s c unread escaped ih =>
    have := escape?_length escaped
    have := ih h
    simp only [List.length_cons]
    omega
  | case4 => cases h
  | case5 => cases h
  | case6 done c s _ _ _ ih =>
    have := ih h
    simp only [List.length_cons]
    omega

theorem digits_length {s : List Char} : (digits s).1.length + (digits s).2.length = s.length := by
  rw [← List.length_append]
  simp [digits]

theorem fraction?_length {s rest : List Char} {f : Option (List Char)}
    (h : fraction? s = some (f, rest)) :
    rest.length ≤ s.length := by
  unfold fraction? at h
  split at h
  · rename_i t
    have := digits_length (s := t)
    split at h
    · cases h
    · rename_i e
      cases h
      simp only [e, List.length_cons] at this ⊢
      omega
  · cases h
    exact Nat.le_refl _

theorem exponent?_length {s rest : List Char} {n : Option Int} (h : exponent? s = some (n, rest)) :
    rest.length ≤ s.length := by
  unfold exponent? at h
  split at h
  · rename_i c t
    split at h
    · split at h
      rename_i negative u e
      have shorter : u.length ≤ t.length := by
        split at e <;> cases e <;> simp
      have := digits_length (s := u)
      split at h
      · cases h
      · rename_i read
        cases h
        simp only [read, List.length_cons] at this ⊢
        omega
    · cases h
      exact Nat.le_refl _
  · cases h
    exact Nat.le_refl _

theorem unsigned?_length {negative : Bool} {s rest : List Char} {n : Number}
    (h : unsigned? negative s = some (n, rest)) : rest.length < s.length := by
  simp only [unsigned?] at h
  split at h
  · rename_i whole
    simp only [Option.bind_eq_bind, Option.bind_eq_some_iff, Option.pure_def, Option.some.injEq,
      Prod.exists, Prod.mk.injEq] at h
    obtain ⟨_, t, first, _, u, second, _, _, _, rfl⟩ := h
    have parts := digits_length (s := s)
    have some_digit : (digits s).1.length ≠ 0 := by
      intro none_there
      simp [isWhole, List.length_eq_zero_iff.1 none_there] at whole
    have := fraction?_length first
    have := exponent?_length second
    omega
  · cases h

theorem first?_length {s rest : List Char} {t : Token} (h : first? s = some (t, rest)) :
    rest.length < s.length := by
  unfold first? at h
  split at h
  all_goals try (cases h; simp only [List.length_cons]; omega)
  · simp only [Option.map_eq_some_iff, Prod.exists, Prod.mk.injEq] at h
    obtain ⟨_, _, read, _, rfl⟩ := h
    have := string?_length read
    simp only [List.length_cons]
    omega
  · simp only [Option.map_eq_some_iff, Prod.exists, Prod.mk.injEq] at h
    obtain ⟨_, _, read, _, rfl⟩ := h
    have := unsigned?_length read
    simp only [List.length_cons]
    omega
  · simp only [Option.map_eq_some_iff, Prod.exists, Prod.mk.injEq] at h
    obtain ⟨_, _, read, _, rfl⟩ := h
    exact unsigned?_length read

end Token

def tokens? (s : List Char) : Option (List Token) :=
  match s with
  | [] => some []
  | c :: s =>
    if Token.isSpace c then tokens? s
    else
      match _h : Token.first? (c :: s) with
      | some (t, rest) => (tokens? rest).map (t :: ·)
      | none => none
termination_by s.length
decreasing_by
  · simp
  · exact Token.first?_length _h

end Ldap.Json
