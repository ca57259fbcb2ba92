import Ldap.Proofs.Ber.Refusal

/-! Reading at positions. A cursor keeps all octets and a position; what it reads are slices of
the octets, and there is no outcome where a slice is out of range. The readers of this kind do at
a position what the readers of unread octets do with the octets behind it: so all slices are in
range, and the unread octets that readers pass on are those from a position on, which never moves
back. -/
namespace Ldap.Ber

structure Cursor where
  data : Octets
  position : Nat
  deriving Repr, DecidableEq

namespace Cursor

def unread (c : Cursor) : Octets := c.data.drop c.position

def remaining (c : Cursor) : Nat := c.data.length - c.position

def isEmpty (c : Cursor) : Bool := c.remaining == 0

def slice? (data : Octets) (first last : Nat) : Option Octets :=
  if first ≤ last ∧ last ≤ data.length then some ((data.drop first).take (last - first)) else none

/-- A fault leaves the cursor where it has come; there is nothing after a slice that is out of
range. -/
abbrev Reading (α : Type) := ExceptT Error (StateT Cursor Option) α

def take (n : Nat) : Reading Octets := do
  let c ← get
  if c.remaining < n then throw (.truncated n c.remaining)
  else
    set { c with position := c.position + n }
    liftM (slice? c.data c.position (c.position + n))

def octet : Reading UInt8 := do liftM (← take 1).head?

def tag : Reading Tag := do
  let t ← octet
  if Tag.isMultiOctet t then throw (.highTagNumber t) else return t

def lengthFrom (first : UInt8) : Reading Nat :=
  let count := (first &&& 0x7F).toNat
  if first &&& 0x80 = 0 then return first.toNat
  else if count = 0 then throw .indefiniteLength
  else if 4 < count then throw (.lengthTooLarge count)
  else return (Length.word (← take count)).toNat

def length : Reading Nat := octet >>= lengthFrom

def element : Reading Element := do
  let t ← tag
  let n ← length
  let content ← take n
  return ⟨t, content⟩

def outcome? {α : Type} (x : Reading α) (c : Cursor) : Option (Except Error α × Cursor) :=
  x.run.run c

def Inside (c : Cursor) : Prop := c.position ≤ c.data.length

structure Moves (c d : Cursor) : Prop where
  data : d.data = c.data
  forth : c.position ≤ d.position
  inside : d.Inside

theorem Moves.stay {c : Cursor} (inside : c.Inside) : c.Moves c where
  data := rfl
  forth := Nat.le_refl _
  inside := inside

theorem Moves.trans {c d e : Cursor} (first : c.Moves d) (next : d.Moves e) : c.Moves e where
  data := next.data.trans first.data
  forth := Nat.le_trans first.forth next.forth
  inside := next.inside

@[simp] theorem length_unread (c : Cursor) : c.unread.length = c.remaining := List.length_drop

@[simp] theorem isEmpty_unread (c : Cursor) : c.unread.isEmpty = c.isEmpty := by
  rw [isEmpty, ← length_unread]
  cases c.unread <;> rfl

theorem Moves.position_eq {c d : Cursor} (moves : c.Moves d) {used : Octets}
    (split : c.unread = used ++ d.unread) :
    d.position = c.position + used.length := by
  obtain ⟨data, forth, inside⟩ := moves
  have lengths := congrArg List.length split
  rw [Inside, data] at inside
  rw [List.length_append, length_unread, length_unread, remaining, remaining, data] at lengths
  omega

theorem Moves.slice?_eq {c d : Cursor} (moves : c.Moves d) {used : Octets}
    (split : c.unread = used ++ d.unread) :
    slice? c.data c.position d.position = some used := by
  have inside := moves.inside
  rw [Inside, moves.data] at inside
  rw [slice?, if_pos ⟨moves.forth, inside⟩, moves.position_eq split, Nat.add_sub_cancel_left]
  change some (c.unread.take used.length) = some used
  rw [split, List.take_left]

theorem exists_moves {c : Cursor} {used rest : Octets} (inside : c.Inside)
    (split : c.unread = used ++ rest) :
    ∃ d, c.Moves d ∧ d.unread = rest ∧ d.position = c.position + used.length := by
  have lengths := congrArg List.length split
  rw [List.length_append, length_unread, remaining] at lengths
  rw [Inside] at inside
  refine ⟨⟨c.data, c.position + used.length⟩, ⟨rfl, Nat.le_add_right .., ?_⟩, ?_, rfl⟩
  · change c.position + used.length ≤ c.data.length
    omega
  · change c.data.drop (c.position + used.length) = rest
    rw [← List.drop_drop]
    change c.unread.drop used.length = rest
    rw [split, List.drop_left]

end Cursor

namespace Reader

def settle {α : Type} : EStateM.Result Error Octets α → Except Error α × Octets
  | .ok a rest => (.ok a, rest)
  | .error e rest => (.error e, rest)

@[simp] theorem settle_ok {α : Type} {r : EStateM.Result Error Octets α} {a : α} {rest : Octets} :
    settle r = (.ok a, rest) ↔ r = .ok a rest := by
  cases r <;> simp [settle]

@[simp] theorem settle_error {α : Type} {r : EStateM.Result Error Octets α} {e : Error}
    {rest : Octets} :
    settle r = (.error e, rest) ↔ r = .error e rest := by
  cases r <;> simp [settle]

end Reader

namespace Cursor

/-- At every position there is an outcome, and it is the one that a reader gives for the octets
behind it. -/
def Agrees {α : Type} (x : Reading α) (y : Reader α) : Prop :=
  ∀ c, c.Inside → ∃ answer d, outcome? x c = some (answer, d) ∧ c.Moves d ∧
    Reader.settle (y c.unread) = (answer, d.unread)

section
variable {α β : Type} {x : Reading α} {y : Reader α} {f : α → Reading β} {g : α → Reader β}

theorem outcome?_bind_ok {c d : Cursor} {a : α} (h : outcome? x c = some (.ok a, d)) :
    outcome? (x >>= f) c = outcome? (f a) d := by
  change (outcome? x c).bind _ = _
  rw [h]
  rfl

theorem outcome?_bind_error {c d : Cursor} {e : Error} (h : outcome? x c = some (.error e, d)) :
    outcome? (x >>= f) c = some (.error e, d) := by
  change (outcome? x c).bind _ = _
  rw [h]
  rfl

theorem outcome?_moved (s? : Option α) (c d : Cursor) :
    outcome? (do set d; liftM s?) c = s?.map fun s => (.ok s, d) := by
  cases s? <;> rfl

theorem Agrees.pure (a : α) : Agrees (pure a) (pure a) :=
  fun c inside => ⟨.ok a, c, rfl, .stay inside, rfl⟩

theorem Agrees.throw (e : Error) : Agrees (throw e : Reading α) (throw e) :=
  fun c inside => ⟨.error e, c, rfl, .stay inside, rfl⟩

theorem Agrees.bind (first : Agrees x y) (next : ∀ a, Agrees (f a) (g a)) :
    Agrees (x >>= f) (y >>= g) := by
  intro c inside
  obtain ⟨answer, d, given, moves, settled⟩ := first c inside
  cases answer with
  | error e =>
    refine ⟨.error e, d, outcome?_bind_error given, moves, ?_⟩
    rw [Reader.bind_of_error (Reader.settle_error.1 settled)]
    rfl
  | ok a =>
    obtain ⟨answer, e, givenNext, movesNext, settledNext⟩ := next a d moves.inside
    refine ⟨answer, e, (outcome?_bind_ok given).trans givenNext, moves.trans movesNext, ?_⟩
    rw [Reader.bind_of_ok (Reader.settle_ok.1 settled)]
    exact settledNext

theorem Agrees.map (h : α → β) (agrees : Agrees x y) : Agrees (h <$> x) (h <$> y) :=
  agrees.bind fun a => .pure (h a)

end

theorem take_agrees (n : Nat) : Agrees (take n) (Reader.take n) := by
  intro c inside
  by_cases short : c.remaining < n
  · refine ⟨.error (.truncated n c.remaining), c, ?_, .stay inside, ?_⟩
    · change outcome? (if c.remaining < n then _ else _) c = _
      rw [if_pos short]
      rfl
    · rw [Reader.settle_error, Reader.take_error, length_unread]
      exact ⟨rfl, short, rfl⟩
  · obtain ⟨d, moves, behind, position⟩ :=
      exists_moves inside (List.take_append_drop n c.unread).symm
    have whole : (c.unread.take n).length = n := by
      rw [List.length_take_of_le (by rw [length_unread]; omega)]
    rw [whole] at position
    have same : d = { c with position := c.position + n } := by rw [← moves.data, ← position]
    have split : c.unread = c.unread.take n ++ d.unread := by rw [behind, List.take_append_drop]
    have slice := moves.slice?_eq split
    rw [position] at slice
    refine ⟨.ok (c.unread.take n), d, ?_, moves, ?_⟩
    · change outcome? (if c.remaining < n then _ else _) c = _
      rw [if_neg short, same, outcome?_moved, slice]
      rfl
    · rw [Reader.settle_ok, Reader.take_ok]
      exact ⟨split, whole⟩

theorem octet_agrees : Agrees octet Reader.octet := by
  intro c inside
  obtain ⟨answer, d, given, moves, settled⟩ := take_agrees 1 c inside
  cases answer with
  | error e =>
    obtain ⟨unmoved, short, fault⟩ := Reader.take_error.1 (Reader.settle_error.1 settled)
    have nothing : d.unread = [] := List.length_eq_zero_iff.1 (by omega)
    refine ⟨.error e, d, outcome?_bind_error given, moves, ?_⟩
    rw [Reader.settle_error, Reader.octet_error]
    exact ⟨unmoved.trans nothing, nothing, by rw [fault, nothing]; rfl⟩
  | ok s =>
    obtain ⟨split, single⟩ := Reader.take_ok.1 (Reader.settle_ok.1 settled)
    obtain ⟨b, rfl⟩ := List.length_eq_one_iff.1 single
    refine ⟨.ok b, d, (outcome?_bind_ok given).trans rfl, moves, ?_⟩
    rw [Reader.settle_ok, Reader.octet_ok]
    exact split

theorem tag_agrees : Agrees tag Reader.tag := by
  refine octet_agrees.bind fun t => ?_
  split
  · exact .throw _
  · exact .pure t

theorem lengthFrom_agrees (first : UInt8) :
    Agrees (lengthFrom first) (Reader.lengthFrom first) := by
  unfold lengthFrom Reader.lengthFrom
  dsimp only
  split
  · exact .pure _
  · split
    · exact .throw _
    · split
      · exact .throw _
      · exact (take_agrees _).bind fun digits => .pure _

theorem length_agrees : Agrees length Reader.length := octet_agrees.bind lengthFrom_agrees

theorem element_agrees : Agrees element Reader.element :=
  tag_agrees.bind fun _ => length_agrees.bind fun n => (take_agrees n).bind fun _ => .pure _

/-- What lies between two cursors, when an element is read at the first and this ends at the
second: its tag and length, and the content up to the second; or, after a fault, what was read of
tag and length, and nothing of a content. -/
def Across (c d : Cursor) : Except Error Element → Prop
  | .ok e => ∃ l, Tag.isMultiOctet e.tag = false ∧ Length.Spells l e.content.length ∧
      slice? c.data c.position (d.position - e.content.length) = some (e.tag :: l) ∧
      slice? c.data (d.position - e.content.length) d.position = some e.content
  | .error fault => ∃ header, Reader.ElementRefused header d.unread fault ∧
      slice? c.data c.position d.position = some header

theorem across_of_settle {c d : Cursor} {answer : Except Error Element} (inside : c.Inside)
    (moves : c.Moves d) (settled : Reader.settle (Reader.element c.unread) = (answer, d.unread)) :
    Across c d answer := by
  cases answer with
  | error fault =>
    obtain ⟨header, refused, split⟩ := Reader.element_error_iff.1 (Reader.settle_error.1 settled)
    exact ⟨header, refused, moves.slice?_eq split⟩
  | ok e =>
    obtain ⟨used, spelled, split⟩ := Reader.element_iff.1 (Reader.settle_ok.1 settled)
    cases spelled with
    | intro t l content single spelled =>
      -- The content begins at a position of its own, which is reached from the first and reaches
      -- the second.
      have header : c.unread = (t :: l) ++ (content ++ d.unread) := by rw [split]; simp
      obtain ⟨m, toContent, behind, position⟩ := exists_moves inside header
      have last := moves.position_eq split
      have before : m.position = d.position - content.length := by
        rw [position, last, List.length_cons, List.length_cons, List.length_append]
        omega
      have fromContent : m.Moves d := ⟨moves.data.trans toContent.data.symm, by omega, moves.inside⟩
      refine ⟨l, single, spelled, ?_, ?_⟩
      · rw [← before]
        exact toContent.slice?_eq (by rw [header, behind])
      · rw [← before, ← toContent.data]
        exact fromContent.slice?_eq behind

end Cursor

inductive Query where
  | tag
  | length
  | element
  | isEmpty
  deriving Repr, DecidableEq

inductive Answer where
  | tag (t : Tag)
  | length (n : Nat)
  | element (e : Element)
  | isEmpty (b : Bool)
  deriving Repr, DecidableEq

namespace Query

def read : Query → Reader Answer
  | tag => .tag <$> Reader.tag
  | length => .length <$> Reader.length
  | element => .element <$> Reader.element
  | isEmpty => do return .isEmpty (← get).isEmpty

def readAt : Query → Cursor.Reading Answer
  | tag => .tag <$> Cursor.tag
  | length => .length <$> Cursor.length
  | element => .element <$> Cursor.element
  | isEmpty => do return .isEmpty (← get).isEmpty

def readAll : List Query → Octets → List (Except Error Answer) × Octets
  | [], s => ([], s)
  | query :: queries, s =>
    let (answer, s) := Reader.settle (query.read s)
    let (answers, s) := readAll queries s
    (answer :: answers, s)

def readAllAt : List Query → Cursor → Option (List (Except Error Answer) × Cursor)
  | [], c => some ([], c)
  | query :: queries, c => do
    let (answer, c) ← Cursor.outcome? query.readAt c
    let (answers, c) ← readAllAt queries c
    return (answer :: answers, c)

theorem read_agrees (query : Query) : Cursor.Agrees query.readAt query.read := by
  cases query with
  | tag => exact Cursor.tag_agrees.map Answer.tag
  | length => exact Cursor.length_agrees.map Answer.length
  | element => exact Cursor.element_agrees.map Answer.element
  | isEmpty =>
    intro c inside
    refine ⟨.ok (.isEmpty c.isEmpty), c, rfl, .stay inside, ?_⟩
    rw [← c.isEmpty_unread]
    rfl

theorem readAll_agrees (queries : List Query) {c : Cursor} (inside : c.Inside) :
    ∃ answers d, readAllAt queries c = some (answers, d) ∧ c.Moves d ∧
      readAll queries c.unread = (answers, d.unread) := by
  induction queries generalizing c with
  | nil => exact ⟨[], c, rfl, .stay inside, rfl⟩
  | cons query queries ih =>
    obtain ⟨answer, d, given, moves, settled⟩ := query.read_agrees c inside
    obtain ⟨answers, e, givenLater, movesLater, settledLater⟩ := ih moves.inside
    refine ⟨answer :: answers, e, ?_, moves.trans movesLater, ?_⟩
    · rw [readAllAt, given, Option.bind_eq_bind, Option.bind_some]
      dsimp only
      rw [givenLater]
      rfl
    · rw [readAll, settled]
      dsimp only
      rw [settledLater]

/-- Whatever is asked for, and whatever is refused on the way: no slice is out of range, the
answers are those for the unread octets, and the position is one of the octets or the one behind
the last, and never before an earlier one. As many octets remain as are unread, and the reader is
empty exactly when none remain. An element that is read next is a tag and a length in front of a
content that ends at the new position; where it is refused, the new position is behind what was
read of the tag and the length, and nothing of a content has been passed. -/
theorem position_stays_inside (data : Octets) (before after : List Query) :
    ∃ answers c later d,
      readAllAt before ⟨data, 0⟩ = some (answers, c) ∧ readAll before data = (answers, c.unread) ∧
      readAllAt after c = some (later, d) ∧ readAll after c.unread = (later, d.unread) ∧
      d.data = data ∧ c.position ≤ d.position ∧ d.position ≤ data.length ∧
      d.remaining = d.unread.length ∧ (d.isEmpty = true ↔ d.remaining = 0) ∧
      ∃ answer e, Cursor.outcome? Cursor.element d = some (answer, e) ∧
        Reader.settle (Reader.element d.unread) = (answer, e.unread) ∧ d.Moves e ∧
        Cursor.Across d e answer := by
  have inside : Cursor.Inside ⟨data, 0⟩ := Nat.zero_le _
  obtain ⟨answers, c, given, moves, settled⟩ := readAll_agrees before inside
  obtain ⟨later, d, givenLater, movesLater, settledLater⟩ := readAll_agrees after moves.inside
  obtain ⟨answer, e, givenElement, movesElement, settledElement⟩ :=
    Cursor.element_agrees d movesLater.inside
  have same : d.data = data := (moves.trans movesLater).data
  have bound : d.position ≤ data.length := by
    rw [← same]
    exact movesLater.inside
  refine ⟨answers, c, later, d, given, settled, givenLater, settledLater, same,
    movesLater.forth, bound, d.length_unread.symm, by simp [Cursor.isEmpty], answer, e,
    givenElement, settledElement, movesElement, ?_⟩
  exact Cursor.across_of_settle movesLater.inside movesElement settledElement

example :
    readAllAt [.tag, .element, .isEmpty, .element, .length, .isEmpty]
      ⟨[0x1F, 0x04, 0x84, 0xFF, 0xFF, 0xFF, 0xFF, 0x04, 0x02, 0x61, 0x62], 0⟩ =
    some ([.error (.highTagNumber 0x1F), .error (.truncated (2 ^ 32 - 1) 4), .ok (.isEmpty false),
        .ok (.element ⟨0x04, [0x61, 0x62]⟩), .error (.truncated 1 0), .ok (.isEmpty true)],
      ⟨[0x1F, 0x04, 0x84, 0xFF, 0xFF, 0xFF, 0xFF, 0x04, 0x02, 0x61, 0x62], 11⟩) := by rfl

end Query
end Ldap.Ber
