import Ldap.Registry.Metrics

/-! The text exposition format, read line by line. A line is the help or the type of a metric, or
a sample: the metric, its labels, and a count. In the value of a label a backslash stands before a
backslash, before a quote and before an `n` for a line feed. -/
namespace Ldap.Exposition
open Metrics (escapeLabel)

inductive Line where
  | help (metric text : String)
  | type (metric kind : String)
  | sample (metric : String) (labels : List (String × String)) (value : Nat)
  deriving Repr, DecidableEq

/-! Reading. Each reader takes something off the front of a text and gives what is left. -/

def cut? (stop : Char) : List Char → Option (List Char × List Char)
  | [] => none
  | c :: rest =>
    if c = stop then some ([], rest)
    else do
      let (word, rest) ← cut? stop rest
      return (c :: word, rest)

def unescape? (c : Char) : Option Char :=
  if c = '\\' ∨ c = '"' then some c
  else if c = 'n' then some '\n'
  else none

def value? : List Char → Option (List Char × List Char)
  | [] => none
  | '"' :: rest => some ([], rest)
  | ['\\'] => none
  | '\\' :: c :: rest => do
    let c ← unescape? c
    let (value, rest) ← value? rest
    return (c :: value, rest)
  | c :: rest => do
    let (value, rest) ← value? rest
    return (c :: value, rest)

theorem cut?_length {stop : Char} {s word rest : List Char} (h : cut? stop s = some (word, rest)) :
    rest.length < s.length := by
  induction s generalizing word with
  | nil => cases h
  | cons c s ih =>
    rw [cut?] at h
    split at h
    · cases h
      exact Nat.lt_succ_self _
    · obtain ⟨⟨word, rest⟩, found, last⟩ := Option.bind_eq_some_iff.1 h
      cases last
      exact Nat.lt_succ_of_lt (ih found)

theorem value?_length {s value rest : List Char} (h : value? s = some (value, rest)) :
    rest.length < s.length := by
  induction s using value?.induct generalizing value with
  | case1 => cases h
  | case2 rest =>
    cases h
    exact Nat.lt_succ_self _
  | case3 => cases h
  | case4 c s ih =>
    obtain ⟨d, _, others⟩ := Option.bind_eq_some_iff.1 h
    obtain ⟨⟨value, rest⟩, found, last⟩ := Option.bind_eq_some_iff.1 others
    cases last
    exact Nat.lt_succ_of_lt (Nat.lt_succ_of_lt (ih found))
  | case5 c s noQuote noEnd noEscape ih =>
    rw [value?.eq_5 c s noQuote noEnd noEscape] at h
    obtain ⟨⟨value, rest⟩, found, last⟩ := Option.bind_eq_some_iff.1 h
    cases last
    exact Nat.lt_succ_of_lt (ih found)

def label? (s : List Char) : Option ((String × String) × List Char) := do
  let (name, rest) ← cut? '=' s
  match rest with
  | '"' :: rest => do
    let (value, rest) ← value? rest
    return ((.ofList name, .ofList value), rest)
  | _ => none

theorem label?_length {s rest : List Char} {label : String × String}
    (h : label? s = some (label, rest)) :
    rest.length < s.length := by
  obtain ⟨⟨name, after⟩, named, others⟩ := Option.bind_eq_some_iff.1 h
  dsimp only at others
  split at others
  · obtain ⟨⟨value, after⟩, valued, last⟩ := Option.bind_eq_some_iff.1 others
    cases last
    have shorter := cut?_length named
    have still := value?_length valued
    rw [List.length_cons] at shorter
    dsimp only
    omega
  · cases others

def labels? (s : List Char) : Option (List (String × String) × List Char) :=
  match _first : label? s with
  | some (label, ',' :: rest) => do
    let (labels, rest) ← labels? rest
    return (label :: labels, rest)
  | some (label, '\x7d' :: rest) => some ([label], rest)
  | _ => none
termination_by s.length
decreasing_by
  have shorter := label?_length _first
  rw [List.length_cons] at shorter
  omega

def isNameChar (c : Char) : Bool := c.isAlphanum || c = '_' || c = ':'

def decimal? (s : List Char) : Option Nat :=
  if s ≠ [] ∧ s.all Char.isDigit then some (Nat.ofDigitChars 10 s 0) else none

def labelling? : List Char → Option (List (String × String) × List Char)
  | '\x7b' :: rest => labels? rest
  | rest => some ([], rest)

def count? : List Char → Option (Nat × List Char)
  | ' ' :: rest => do
    let (digits, rest) ← cut? '\n' rest
    return (← decimal? digits, rest)
  | _ => none

def sample? (s : List Char) : Option (Line × List Char) := do
  let (labels, rest) ← labelling? (s.dropWhile isNameChar)
  let (value, rest) ← count? rest
  return (.sample (.ofList (s.takeWhile isNameChar)) labels value, rest)

def line? : List Char → Option (Line × List Char)
  | '#' :: ' ' :: 'H' :: 'E' :: 'L' :: 'P' :: ' ' :: rest => do
    let (metric, rest) ← cut? ' ' rest
    let (text, rest) ← cut? '\n' rest
    return (.help (.ofList metric) (.ofList text), rest)
  | '#' :: ' ' :: 'T' :: 'Y' :: 'P' :: 'E' :: ' ' :: rest => do
    let (metric, rest) ← cut? ' ' rest
    let (kind, rest) ← cut? '\n' rest
    return (.type (.ofList metric) (.ofList kind), rest)
  | s => sample? s

def IsName (s : String) : Prop := s ≠ "" ∧ s.toList.all isNameChar

instance (s : String) : Decidable (IsName s) := inferInstanceAs (Decidable (_ ∧ _))

/-! Writing. -/

namespace Line

def labelsText : List (String × String) → String
  | [] => ""
  | labels => Metrics.labels (labels.map fun (name, value) => Metrics.label name value)

def text : Line → String
  | .help metric text => "# HELP " ++ metric ++ " " ++ text
  | .type metric kind => "# TYPE " ++ metric ++ " " ++ kind
  | .sample metric labels value => metric ++ labelsText labels ++ " " ++ toString value

def labels : Line → List (String × String)
  | .sample _ labels _ => labels
  | _ => []

def Valid : Line → Prop
  | .help metric text => IsName metric ∧ '\n' ∉ text.toList
  | .type metric kind => IsName metric ∧ '\n' ∉ kind.toList
  | .sample metric labels _ => IsName metric ∧ ∀ label ∈ labels, IsName label.1

end Line

theorem cut?_append {stop : Char} {word : List Char} (free : stop ∉ word) (rest : List Char) :
    cut? stop (word ++ stop :: rest) = some (word, rest) := by
  induction word with
  | nil => rw [List.nil_append, cut?, if_pos rfl]
  | cons c word ih =>
    rw [List.mem_cons, not_or] at free
    rw [List.cons_append, cut?, if_neg (Ne.symm free.1), ih free.2]
    rfl

@[simp] theorem value?_escaped (s rest : List Char) :
    value? ((s.flatMap fun c => if c = '\\' ∨ c = '"' then ['\\', c] else [c]) ++ '"' :: rest) =
      some (s, rest) := by
  induction s with
  | nil => rfl
  | cons c s ih =>
    rw [List.flatMap_cons, List.append_assoc]
    by_cases special : c = '\\' ∨ c = '"'
    · rw [if_pos special, List.cons_append, List.cons_append, List.nil_append, value?, unescape?,
        if_pos special, ih]
      rfl
    · rw [if_neg special, List.cons_append, List.nil_append]
      rw [not_or] at special
      rw [value?.eq_5 c _ special.2 (fun same => absurd same special.1) (fun _ _ same =>
        absurd same special.1), ih]
      rfl

@[simp] theorem value?_escapeLabel (s : String) (rest : List Char) :
    value? ((escapeLabel s).toList ++ '"' :: rest) = some (s.toList, rest) := by
  rw [escapeLabel, String.toList_ofList]
  exact value?_escaped s.toList rest

theorem IsName.not_mem {s : String} (named : IsName s) {c : Char} (other : isNameChar c = false) :
    c ∉ s.toList := by
  intro there
  have same := List.all_eq_true.1 named.2 c there
  rw [other] at same
  cases same

theorem label?_written {name : String} (named : IsName name) (value : String) (rest : List Char) :
    label? ((Metrics.label name value).toList ++ rest) = some ((name, value), rest) := by
  have written : (Metrics.label name value).toList ++ rest =
      name.toList ++ '=' :: '"' :: ((escapeLabel value).toList ++ '"' :: rest) := by
    simp [Metrics.label, String.toList_append]
  have free : '=' ∉ name.toList := named.not_mem rfl
  rw [written, label?, cut?_append free]
  simp

theorem labels?_written {label : String × String} {labels : List (String × String)}
    (named : ∀ l ∈ label :: labels, IsName l.1) (rest : List Char) :
    labels? ((",".intercalate ((label :: labels).map fun l => Metrics.label l.1 l.2)).toList ++
      '\x7d' :: rest) =
      some (label :: labels, rest) := by
  induction labels generalizing label with
  | nil =>
    have last := label?_written (named label List.mem_cons_self) label.2 ('\x7d' :: rest)
    rw [List.map_singleton, String.intercalate_singleton, labels?, last]
    rfl
  | cons next labels ih =>
    have first := label?_written (named label List.mem_cons_self) label.2
    have others := ih fun l there => named l (List.mem_cons_of_mem _ there)
    rw [List.map_cons] at others
    rw [List.map_cons, List.map_cons, String.intercalate_cons_cons, String.toList_append,
      String.toList_append, List.append_assoc, List.append_assoc, labels?, first]
    change (do
      let (labels, rest) ← labels? (_ ++ '\x7d' :: rest)
      return (label :: labels, rest)) = _
    rw [others]
    rfl

@[simp] theorem decimal?_digits (n : Nat) : decimal? (Nat.toDigits 10 n) = some n := by
  have digits : (Nat.toDigits 10 n).all Char.isDigit :=
    List.all_eq_true.2 fun _ there => Nat.isDigit_of_mem_toDigits (by decide) (by decide) there
  rw [decimal?, if_pos ⟨Nat.toDigits_ne_nil, digits⟩, Nat.ofDigitChars_ten_toDigits]

theorem IsName.takeWhile {name : String} (named : IsName name) {stop : Char}
    (other : isNameChar stop = false) (rest : List Char) :
    (name.toList ++ stop :: rest).takeWhile isNameChar = name.toList ∧
      (name.toList ++ stop :: rest).dropWhile isNameChar = stop :: rest := by
  have all := List.all_eq_true.1 named.2
  rw [List.takeWhile_append_of_pos all, List.dropWhile_append_of_pos all]
  simp [other]

theorem not_mem_toDigits {n : Nat} {c : Char} (other : c.isDigit = false) :
    c ∉ Nat.toDigits 10 n := by
  intro there
  have digit := Nat.isDigit_of_mem_toDigits (by decide) (by decide) there
  rw [other] at digit
  cases digit

@[simp] theorem count?_written (n : Nat) (rest : List Char) :
    count? (' ' :: (Nat.toDigits 10 n ++ '\n' :: rest)) = some (n, rest) := by
  have free : '\n' ∉ Nat.toDigits 10 n := not_mem_toDigits rfl
  rw [count?, cut?_append free]
  simp

theorem sample?_written {metric : String} {labels : List (String × String)} {value : Nat}
    (valid : (Line.sample metric labels value).Valid) (rest : List Char) :
    sample? ((Line.sample metric labels value).text.toList ++ '\n' :: rest) =
      some (.sample metric labels value, rest) := by
  obtain ⟨named, labelled⟩ := valid
  cases labels with
  | nil =>
    have written : (Line.sample metric [] value).text.toList ++ '\n' :: rest =
        metric.toList ++ ' ' :: (Nat.toDigits 10 value ++ '\n' :: rest) := by
      simp [Line.text, Line.labelsText, String.toList_append, Nat.repr_eq_ofList_toDigits]
    have blank : isNameChar ' ' = false := rfl
    obtain ⟨here, after⟩ := named.takeWhile blank (Nat.toDigits 10 value ++ '\n' :: rest)
    have unlabelled : labelling? (' ' :: (Nat.toDigits 10 value ++ '\n' :: rest)) =
        some ([], ' ' :: (Nat.toDigits 10 value ++ '\n' :: rest)) := rfl
    rw [written, sample?, here, after, unlabelled]
    simp
  | cons label labels =>
    have written : (Line.sample metric (label :: labels) value).text.toList ++ '\n' :: rest =
        metric.toList ++ '\x7b' ::
          ((",".intercalate ((label :: labels).map fun l => Metrics.label l.1 l.2)).toList ++
            '\x7d' :: ' ' :: (Nat.toDigits 10 value ++ '\n' :: rest)) := by
      simp [Line.text, Line.labelsText, Metrics.labels, String.toList_append,
        Nat.repr_eq_ofList_toDigits]
    have brace : isNameChar '\x7b' = false := rfl
    obtain ⟨here, after⟩ := named.takeWhile brace
      ((",".intercalate ((label :: labels).map fun l => Metrics.label l.1 l.2)).toList ++
        '\x7d' :: ' ' :: (Nat.toDigits 10 value ++ '\n' :: rest))
    rw [written, sample?, here, after, labelling?, labels?_written labelled]
    simp

theorem line?_of_unmarked {s : List Char} (unmarked : ∀ rest, s ≠ '#' :: rest) :
    line? s = sample? s := by
  unfold line?
  split
  · exact absurd rfl (unmarked _)
  · exact absurd rfl (unmarked _)
  · rfl

/-- A line is read as it was written, whatever follows it. -/
theorem line?_written {line : Line} (valid : line.Valid) (rest : List Char) :
    line? (line.text.toList ++ '\n' :: rest) = some (line, rest) := by
  cases line with
  | help metric text =>
    obtain ⟨named, free⟩ := valid
    have written : (Line.help metric text).text.toList ++ '\n' :: rest =
        '#' :: ' ' :: 'H' :: 'E' :: 'L' :: 'P' :: ' ' ::
          (metric.toList ++ ' ' :: (text.toList ++ '\n' :: rest)) := by
      simp [Line.text, String.toList_append]
    have name : ' ' ∉ metric.toList := named.not_mem rfl
    rw [written, line?, cut?_append name]
    simp [cut?_append free]
  | type metric kind =>
    obtain ⟨named, free⟩ := valid
    have written : (Line.type metric kind).text.toList ++ '\n' :: rest =
        '#' :: ' ' :: 'T' :: 'Y' :: 'P' :: 'E' :: ' ' ::
          (metric.toList ++ ' ' :: (kind.toList ++ '\n' :: rest)) := by
      simp [Line.text, String.toList_append]
    have name : ' ' ∉ metric.toList := named.not_mem rfl
    rw [written, line?, cut?_append name]
    simp [cut?_append free]
  | sample metric labels value =>
    have unmarked : ∀ s, (Line.sample metric labels value).text.toList ++ '\n' :: rest ≠
        '#' :: s := by
      obtain ⟨nonempty, all⟩ := valid.1
      have first : metric.toList ≠ [] :=
        fun nothing => nonempty (String.toList_eq_nil_iff.1 nothing)
      intro s same
      obtain ⟨c, cs, chars⟩ := List.exists_cons_of_ne_nil first
      rw [Line.text, String.toList_append, String.toList_append, String.toList_append,
        chars] at same
      rw [chars, List.all_cons, Bool.and_eq_true] at all
      obtain ⟨rfl, -⟩ := List.cons.inj same
      cases all.1
    rw [line?_of_unmarked unmarked, sample?_written valid]

/-! Line feeds, which end lines and can stand in the values of labels. -/

theorem mem_intercalate_map_iff {α : Type} {c : Char} {separator : List Char} (free : c ∉ separator)
    (text : α → List Char) (xs : List α) :
    c ∈ separator.intercalate (xs.map text) ↔ ∃ x ∈ xs, c ∈ text x := by
  induction xs with
  | nil => simp
  | cons x xs ih =>
    cases xs with
    | nil => simp
    | cons next xs =>
      rw [List.map_cons] at ih
      simp [List.intercalate_cons_cons, ih, free]

@[simp] theorem lineFeed_mem_escapeLabel_iff (s : String) :
    '\n' ∈ (escapeLabel s).toList ↔ '\n' ∈ s.toList := by
  rw [escapeLabel, String.toList_ofList, List.mem_flatMap]
  constructor
  · rintro ⟨c, there, here⟩
    split at here
    · rename_i special
      simp only [List.mem_cons, List.not_mem_nil, or_false] at here
      rcases here with impossible | rfl
      · cases impossible
      · exact there
    · rw [List.mem_singleton] at here
      rwa [here]
  · intro there
    exact ⟨'\n', there, by decide⟩

theorem lineFeed_mem_label_iff {name : String} (named : IsName name) (value : String) :
    '\n' ∈ (Metrics.label name value).toList ↔ '\n' ∈ value.toList := by
  have free : '\n' ∉ name.toList := named.not_mem rfl
  simp [Metrics.label, free]

theorem lineFeed_mem_text_iff {line : Line} (valid : line.Valid) :
    '\n' ∈ line.text.toList ↔ ∃ label ∈ line.labels, '\n' ∈ label.2.toList := by
  cases line with
  | help metric text =>
    have free : '\n' ∉ metric.toList := valid.1.not_mem rfl
    simp [Line.text, Line.labels, String.toList_append, free, valid.2]
  | type metric kind =>
    have free : '\n' ∉ metric.toList := valid.1.not_mem rfl
    simp [Line.text, Line.labels, String.toList_append, free, valid.2]
  | sample metric labels value =>
    have free : '\n' ∉ metric.toList := valid.1.not_mem rfl
    have digits : '\n' ∉ Nat.toDigits 10 value := not_mem_toDigits rfl
    have inside : '\n' ∈ (Line.labelsText labels).toList ↔
        ∃ label ∈ labels, '\n' ∈ label.2.toList := by
      cases labels with
      | nil => simp [Line.labelsText]
      | cons label labels =>
        have comma : '\n' ∉ (",".toList) := by decide
        have braces : '\n' ∉ ("\x7b".toList) ∧ '\n' ∉ ("\x7d".toList) := by decide
        simp only [Line.labelsText, Metrics.labels, String.toList_append, String.toList_intercalate,
          List.mem_append, braces, List.map_map, mem_intercalate_map_iff comma, Function.comp_apply,
          false_or, or_false]
        exact exists_congr fun l => and_congr_right fun there =>
          lineFeed_mem_label_iff (valid.2 l there) l.2
    simp [Line.text, Line.labels, String.toList_append, free, inside, digits,
      Nat.repr_eq_ofList_toDigits]

def terminated (lines : List (List Char)) : List Char := lines.flatMap (· ++ ['\n'])

@[simp] theorem terminated_cons (line : List Char) (lines : List (List Char)) :
    terminated (line :: lines) = line ++ '\n' :: terminated lines := by
  rw [terminated, List.flatMap_cons, List.append_assoc]
  rfl

theorem splitOn_terminated {lines : List (List Char)} (free : ∀ line ∈ lines, '\n' ∉ line) :
    (terminated lines).splitOn '\n' = lines ++ [[]] := by
  induction lines with
  | nil => rfl
  | cons line lines ih =>
    rw [terminated_cons, List.splitOn_append_cons_self_of_not_mem (free line List.mem_cons_self),
      ih fun l there => free l (List.mem_cons_of_mem _ there), List.cons_append]

theorem length_splitOn (s : List Char) (c : Char) : (s.splitOn c).length = s.count c + 1 := by
  induction s with
  | nil => rfl
  | cons d s ih =>
    rw [List.splitOn_cons_eq_if_modifyHead, List.count_cons]
    split
    · rw [List.length_cons, ih]
    · rw [List.length_modifyHead, ih, Nat.add_zero]

@[simp] theorem count_terminated (lines : List (List Char)) :
    (terminated lines).count '\n' = lines.length + lines.flatten.count '\n' := by
  induction lines with
  | nil => rfl
  | cons line lines ih =>
    rw [terminated_cons, List.count_append, List.count_cons_self, ih, List.length_cons,
      List.flatten_cons, List.count_append]
    omega

theorem length_splitOn_terminated_iff (lines : List (List Char)) :
    ((terminated lines).splitOn '\n').length = lines.length + 1 ↔ ∀ line ∈ lines, '\n' ∉ line := by
  rw [length_splitOn, count_terminated, Nat.add_right_cancel_iff, Nat.add_eq_left,
    List.count_eq_zero]
  simp

theorem terminated_injective {lines others : List Line} (valid : ∀ line ∈ lines, line.Valid)
    (alsoValid : ∀ line ∈ others, line.Valid)
    (same : terminated (lines.map (·.text.toList)) = terminated (others.map (·.text.toList))) :
    lines = others := by
  have more (line : Line) (rest : List Line) : terminated ((line :: rest).map (·.text.toList)) ≠
      [] := by
    simp
  induction lines generalizing others with
  | nil =>
    cases others with
    | nil => rfl
    | cons other others => exact absurd same.symm (more other others)
  | cons line lines ih =>
    cases others with
    | nil => exact absurd same (more line lines)
    | cons other others =>
      rw [List.map_cons, List.map_cons, terminated_cons, terminated_cons] at same
      have read :=
        line?_written (valid line List.mem_cons_self) (terminated (lines.map (·.text.toList)))
      rw [same, line?_written (alsoValid other List.mem_cons_self)] at read
      obtain ⟨rfl, rest⟩ := Prod.ext_iff.1 (Option.some.inj read)
      rw [ih (fun l there => valid l (List.mem_cons_of_mem _ there))
        (fun l there => alsoValid l (List.mem_cons_of_mem _ there)) rest.symm]

end Ldap.Exposition
