import Ldap.Json.Text
import Ldap.Json.Token
import Mathlib.Tactic.SplitIfs

/-! The tokens of written text. A piece of text has tokens of its own when it can be read off
whatever comes behind it; pieces are then put together by appending. -/
namespace Ldap.Json

namespace Token

theorem escape?_control : ∀ n < 32, ∀ rest : List Char,
    escape? ('u' :: '0' :: '0' :: (Text.hexPair (.ofNat n) ++ rest)) = some (.ofNat n, rest) := by
  have digits : ∀ n < 32, ∃ a b, Text.hexPair (.ofNat n) = [a, b] ∧ hex4? '0' '0' a b = some n := by
    intro n small
    refine ⟨_, _, rfl, ?_⟩
    revert n
    decide
  intro n small rest
  obtain ⟨a, b, pair, read⟩ := digits n small
  have low : isLowSurrogate n = false := by simp [isLowSurrogate]; omega
  have high : isHighSurrogate n = false := by simp [isHighSurrogate]; omega
  rw [pair, List.cons_append, List.cons_append, List.nil_append, escape?, read]
  simp [low, high]

theorem string?_escape {s rest done : List Char} {c : Char} (h : escape? s = some (c, rest)) :
    string? done ('\\' :: s) = string? (c :: done) rest := by
  rw [string?]
  split
  · rename_i found
    rw [h] at found
    cases found
    rfl
  · rename_i found
    rw [h] at found
    cases found

theorem string?_plain {rest done : List Char} {c : Char} (quote : c ≠ '"') (backslash : c ≠ '\\')
    (printed : ¬c.toNat < 0x20) : string? done (c :: rest) = string? (c :: done) rest := by
  rw [string?]
  · rw [if_neg printed]
  · exact quote
  · exact backslash

@[simp] theorem string?_escapeChar (c : Char) (done rest : List Char) :
    string? done (escapeChar c ++ rest) = string? (c :: done) rest := by
  unfold escapeChar
  split_ifs with quote backslash b f n r t control
  · rw [quote]
    exact string?_escape rfl
  · rw [backslash]
    exact string?_escape rfl
  · rw [b]
    exact string?_escape rfl
  · rw [f]
    exact string?_escape rfl
  · rw [n]
    exact string?_escape rfl
  · rw [r]
    exact string?_escape rfl
  · rw [t]
    exact string?_escape rfl
  · have read := escape?_control c.toNat control rest
    rw [Char.ofNat_toNat] at read
    exact string?_escape read
  · exact string?_plain quote backslash control

@[simp] theorem string?_escaped (s done rest : List Char) :
    string? done (s.flatMap escapeChar ++ '"' :: rest) =
      some (.ofList (done.reverse ++ s), rest) := by
  induction s generalizing done with
  | nil => simp [string?]
  | cons c s ih =>
    rw [List.flatMap_cons, List.append_assoc, string?_escapeChar, ih, List.reverse_cons,
      List.append_assoc]
    rfl

@[simp] theorem first?_quoted (s : String) (rest : List Char) :
    first? (quoted s ++ rest) = some (.string s, rest) := by
  have read := string?_escaped s.toList [] rest
  rw [List.reverse_nil, List.nil_append, String.ofList_toList] at read
  simp only [quoted, List.cons_append, List.append_assoc, List.nil_append, first?, read,
    Option.map_some]

end Token

theorem tokens?_space {c : Char} (space : Token.isSpace c = true) (rest : List Char) :
    tokens? (c :: rest) = tokens? rest := by
  rw [tokens?, if_pos space]

theorem tokens?_token {c : Char} {s rest : List Char} {t : Token}
    (visible : Token.isSpace c = false) (h : Token.first? (c :: s) = some (t, rest)) :
    tokens? (c :: s) = (tokens? rest).map (t :: ·) := by
  rw [tokens?, if_neg (by simp [visible])]
  split
  · rename_i found
    rw [h] at found
    cases found
    rfl
  · rename_i found
    rw [h] at found
    cases found

/-- The text `s` is read as the tokens `ts`, whatever follows. -/
def Tokenizes (s : List Char) (ts : List Token) : Prop :=
  ∀ rest, tokens? (s ++ rest) = (tokens? rest).map (ts ++ ·)

namespace Tokenizes

theorem nil : Tokenizes [] [] := by
  intro rest
  simp

theorem append {s t : List Char} {ts us : List Token} (first : Tokenizes s ts)
    (second : Tokenizes t us) :
    Tokenizes (s ++ t) (ts ++ us) := by
  intro rest
  rw [List.append_assoc, first, second, Option.map_map]
  simp [Function.comp_def]

theorem token {c : Char} {s : List Char} {t : Token} (visible : Token.isSpace c = false)
    (h : ∀ rest, Token.first? (c :: (s ++ rest)) = some (t, rest)) : Tokenizes (c :: s) [t] := by
  intro rest
  rw [List.cons_append, tokens?_token visible (h rest)]
  rfl

theorem space {s : List Char} (h : ∀ c ∈ s, Token.isSpace c = true) : Tokenizes s [] := by
  intro rest
  induction s with
  | nil => simp
  | cons c s ih =>
    rw [List.forall_mem_cons] at h
    rw [List.cons_append, tokens?_space h.1, ih h.2]

theorem quoted (s : String) : Tokenizes (Json.quoted s) [.string s] :=
  token rfl (Token.first?_quoted s)

theorem boolText (b : Bool) : Tokenizes (Json.boolText b) [.scalar (.bool b)] := by
  cases b with
  | false => exact token rfl fun rest => rfl
  | true => exact token rfl fun rest => rfl

theorem newLine (level : Nat) : Tokenizes (Json.newLine level) [] := by
  refine space fun c member => ?_
  simp only [Json.newLine, List.mem_cons, List.mem_replicate] at member
  rcases member with rfl | ⟨_, rfl⟩ <;> rfl

theorem tokens?_eq {s : List Char} {ts : List Token} (h : Tokenizes s ts) :
    tokens? s = some ts := by
  have whole := h []
  rwa [List.append_nil, tokens?, Option.map_some, List.append_nil] at whole

end Tokenizes
end Ldap.Json
