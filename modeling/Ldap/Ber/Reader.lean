import Ldap.Ber.Element

/-! Reading an octet string from the front. The state is what is still unread, so a result leaves
the unread suffix behind, and a failure leaves the octets after the piece that was read before
it. -/
namespace Ldap.Ber

abbrev Reader (α : Type) := EStateM Error Octets α

namespace Reader

def octet : Reader UInt8
  | [] => .error (.truncated 1 0) []
  | b :: rest => .ok b rest

/-- The next `n` octets; where fewer are left, none is consumed. -/
def take (n : Nat) : Reader Octets := fun s =>
  if (s.take n).length < n then .error (.truncated n s.length) s else .ok (s.take n) (s.drop n)

def tag : Reader Tag := do
  let t ← octet
  if Tag.isMultiOctet t then throw (.highTagNumber t) else return t

/-- The length that the first length octet stands for or announces: the short form, or the long
form with one to four digits, leading zeros allowed. -/
def lengthFrom (first : UInt8) : Reader Nat :=
  let count := (first &&& 0x7F).toNat
  if first &&& 0x80 = 0 then return first.toNat
  else if count = 0 then throw .indefiniteLength
  else if 4 < count then throw (.lengthTooLarge count)
  else return (Length.word (← take count)).toNat

def length : Reader Nat := octet >>= lengthFrom

def element : Reader Element := do
  let t ← tag
  let n ← length
  let content ← take n
  return ⟨t, content⟩

@[simp] theorem bind_ok {α β : Type} {x : Reader α} {f : α → Reader β} {s rest : Octets} {b : β} :
    (x >>= f) s = .ok b rest ↔ ∃ a unread, x s = .ok a unread ∧ f a unread = .ok b rest := by
  simp only [bind, EStateM.bind]
  cases x s with
  | ok a unread => exact ⟨fun h => ⟨a, unread, rfl, h⟩, by rintro ⟨_, _, ⟨⟩, h⟩; exact h⟩
  | error e unread => simp

@[simp] theorem pure_ok {α : Type} {a b : α} {s rest : Octets} :
    (pure a : Reader α) s = .ok b rest ↔ a = b ∧ s = rest := by
  simp [pure, EStateM.pure]

theorem throw_ok {α : Type} {e : Error} {s rest : Octets} {b : α} :
    ¬ (throw e : Reader α) s = .ok b rest := by
  change ¬ EStateM.Result.error e s = .ok b rest
  simp

@[simp] theorem octet_ok {s rest : Octets} {b : UInt8} : octet s = .ok b rest ↔ s = b :: rest := by
  cases s <;> simp [octet]

@[simp] theorem take_ok {n : Nat} {s front rest : Octets} :
    take n s = .ok front rest ↔ s = front ++ rest ∧ front.length = n := by
  unfold take
  split
  · rename_i short
    simp only [List.length_take] at short
    simp only [reduceCtorEq, false_iff, not_and]
    rintro rfl
    simp at short
    omega
  · rename_i long
    simp only [List.length_take] at long
    simp only [EStateM.Result.ok.injEq]
    constructor
    · rintro ⟨rfl, rfl⟩
      exact ⟨(List.take_append_drop n s).symm, by simp; omega⟩
    · rintro ⟨rfl, rfl⟩
      simp

@[simp] theorem tag_ok {s rest : Octets} {t : Tag} :
    tag s = .ok t rest ↔ s = t :: rest ∧ Tag.isMultiOctet t = false := by
  simp only [tag, bind_ok, octet_ok]
  constructor
  · rintro ⟨first, unread, rfl, h⟩
    split at h
    · exact absurd h throw_ok
    · obtain ⟨rfl, rfl⟩ := pure_ok.1 h
      simp_all
  · rintro ⟨rfl, single⟩
    exact ⟨t, rest, rfl, by simp [single, pure_ok]⟩

theorem lengthFrom_ok {first : UInt8} {s rest : Octets} {n : Nat}
    (h : lengthFrom first s = .ok n rest) :
    rest.length ≤ s.length := by
  unfold lengthFrom at h
  split at h
  · obtain ⟨_, rfl⟩ := pure_ok.1 h
    exact Nat.le_refl _
  · split at h
    · exact absurd h throw_ok
    · split at h
      · exact absurd h throw_ok
      · obtain ⟨digits, unread, taken, h⟩ := bind_ok.1 h
        obtain ⟨_, rfl⟩ := pure_ok.1 h
        simp [(take_ok.1 taken).1]

theorem length_ok {s rest : Octets} {n : Nat} (h : length s = .ok n rest) :
    rest.length < s.length := by
  obtain ⟨first, unread, front, h⟩ := bind_ok.1 h
  have := lengthFrom_ok h
  simp [octet_ok.1 front]
  omega

theorem element_ok_length {s rest : Octets} {e : Element} (h : element s = .ok e rest) :
    rest.length + 2 ≤ s.length := by
  obtain ⟨t, afterTag, readTag, h⟩ := bind_ok.1 h
  obtain ⟨n, afterLength, readLength, h⟩ := bind_ok.1 h
  obtain ⟨content, unread, taken, h⟩ := bind_ok.1 h
  obtain ⟨_, rfl⟩ := pure_ok.1 h
  have := length_ok readLength
  simp only [(tag_ok.1 readTag).1, (take_ok.1 taken).1, List.length_cons,
    List.length_append] at this ⊢
  omega

end Reader

namespace Element

def ofBer (s : Octets) : Except Error Element :=
  match Reader.element s with
  | .ok e [] => .ok e
  | .ok _ rest => .error (.trailingOctets rest.length)
  | .error e _ => .error e

def sequence (s : Octets) : Except Error (List Element) :=
  match s with
  | [] => .ok []
  | b :: s =>
    match _h : Reader.element (b :: s) with
    | .ok e rest => (sequence rest).map (e :: ·)
    | .error e _ => .error e
termination_by s.length
decreasing_by have := Reader.element_ok_length _h; simp_all; omega

def children (e : Element) : Except Error (List Element) := sequence e.content

def optionalOctets : List Element → Option Octets × List Element
  | [] => (none, [])
  | e :: rest => if e.tag = Tag.octetString then (some e.content, rest) else (none, e :: rest)

def optionalBool : List Element → Except Error (Option Bool × List Element)
  | [] => .ok (none, [])
  | e :: rest =>
    if e.tag = Tag.boolean then return (some (← e.bool), rest) else return (none, e :: rest)

end Element
end Ldap.Ber
