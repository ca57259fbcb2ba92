import Ldap.Proofs.Ber.Shortest
import Ldap.Proofs.Ber.Writer

/-! Starts and finishes in any order. What a start gave may be finished at any later time, also
more than once, and after starts that came later or earlier. The buffer never loses an octet, so a
position that was inside of it stays inside. -/
namespace Ldap.Ber.Writer

/-- What a writer is asked to do. Truth values, texts and other octets are written as whole
elements; a finish names a start by its number, the first of all being zero. -/
inductive Operation where
  | tag (t : Tag)
  | element (e : Element)
  | start (t : Tag)
  | finish (start : Nat)
  deriving Repr, DecidableEq

/-- Every finish names a start before it, when so many were before all. -/
def Paired (starts : Nat) : List Operation → Prop
  | [] => True
  | .tag _ :: rest => Paired starts rest
  | .element _ :: rest => Paired starts rest
  | .start _ :: rest => Paired (starts + 1) rest
  | .finish start :: rest => start < starts ∧ Paired starts rest

structure Session where
  writer : Writer
  positions : List Nat
  deriving Repr, DecidableEq

namespace Session

def step (s : Session) : Operation → Option Session
  | .tag t => some ⟨s.writer.tag t, s.positions⟩
  | .element e => some ⟨s.writer.element e, s.positions⟩
  | .start t => some ⟨(s.writer.start t).2, s.positions ++ [(s.writer.start t).1]⟩
  | .finish start => do return ⟨← s.writer.finish (← s.positions[start]?), s.positions⟩

def run (s : Session) (operations : List Operation) : Option Session := operations.foldlM step s

structure Extends (t s : Session) : Prop where
  positions : s.positions <+: t.positions
  buffer : s.writer.buffer.Sublist t.writer.buffer

theorem Extends.refl (s : Session) : s.Extends s where
  positions := List.prefix_rfl
  buffer := .refl _

theorem Extends.trans {s t u : Session} (later : u.Extends t) (earlier : t.Extends s) :
    u.Extends s where
  positions := earlier.positions.trans later.positions
  buffer := earlier.buffer.trans later.buffer

def Inside (s : Session) : Prop := ∀ p ∈ s.positions, p ≤ s.writer.buffer.length

theorem Inside.mono {s : Session} {p : Nat} {buffer : Octets} (inside : s.Inside)
    (given : p ∈ s.positions) (kept : s.writer.buffer.Sublist buffer) : p ≤ buffer.length :=
  Nat.le_trans (inside p given) kept.length_le

theorem Inside.finish {s : Session} {start : Nat} (inside : s.Inside)
    (named : start < s.positions.length) :
    ∃ p, s.positions[start]? = some p ∧ p ≤ s.writer.buffer.length ∧
      s.step (.finish start) = some ⟨⟨insertLength p s.writer.buffer⟩, s.positions⟩ := by
  have given := List.getElem?_eq_getElem named
  have bound := inside _ (List.getElem_mem named)
  refine ⟨s.positions[start], given, bound, ?_⟩
  rw [step, given, Option.bind_eq_bind, Option.bind_some, finish_eq bound]
  rfl

theorem Inside.step {s : Session} {operation : Operation} {rest : List Operation}
    (inside : s.Inside) (paired : Paired s.positions.length (operation :: rest)) :
    ∃ t, s.step operation = some t ∧ t.Inside ∧ t.Extends s ∧ Paired t.positions.length rest := by
  have longer (more : Octets) : s.writer.buffer.Sublist (s.writer.append more).buffer :=
    List.sublist_append_left ..
  cases operation with
  | tag t =>
    exact ⟨_, rfl, fun p given => inside.mono given (longer [t]), ⟨List.prefix_rfl, longer [t]⟩,
      paired⟩
  | element e =>
    exact ⟨_, rfl, fun p given => inside.mono given (longer e.toBer),
      ⟨List.prefix_rfl, longer e.toBer⟩, paired⟩
  | start t =>
    refine ⟨_, rfl, ?_, ⟨List.prefix_append .., longer [t]⟩, ?_⟩
    · intro p given
      rcases List.mem_append.1 given with given | new
      · exact inside.mono given (longer [t])
      · rw [List.mem_singleton.1 new]
        exact Nat.le_refl _
    · rw [List.length_append]
      exact paired
  | finish start =>
    obtain ⟨p, -, -, done⟩ := inside.finish paired.1
    have kept := sublist_insertLength p s.writer.buffer
    exact ⟨_, done, fun q given => inside.mono given kept, ⟨List.prefix_rfl, kept⟩, paired.2⟩

theorem Inside.run {s : Session} {operations rest : List Operation} (inside : s.Inside)
    (paired : Paired s.positions.length (operations ++ rest)) :
    ∃ t, s.run operations = some t ∧ t.Inside ∧ t.Extends s ∧ Paired t.positions.length rest := by
  induction operations generalizing s with
  | nil => exact ⟨s, rfl, inside, .refl s, paired⟩
  | cons operation operations ih =>
    obtain ⟨t, first, insideFirst, extendsFirst, paired⟩ := inside.step paired
    obtain ⟨u, others, insideLast, extendsLast, paired⟩ := ih insideFirst paired
    refine ⟨u, ?_, insideLast, extendsLast.trans extendsFirst, paired⟩
    rw [Session.run, List.foldlM_cons, first]
    exact others

/-- Whatever is written between, and in whatever order starts are finished, also more than once:
no finish is refused. A finish leaves the octets in front of its position and those behind it as
they are and puts the shortest length of the latter between them. So at each time the buffer has
all octets of every earlier time, in their order, and every position that was given before is a
position of the buffer. -/
theorem finished_in_any_order (w : Writer) (operations : List Operation)
    (paired : Paired 0 operations) :
    (∀ before between after, operations = before ++ (between ++ after) →
      ∃ s t, run ⟨w, []⟩ before = some s ∧ s.run between = some t ∧ s.positions <+: t.positions ∧
        s.writer.buffer.Sublist t.writer.buffer ∧ ∀ p ∈ s.positions, p ≤ t.writer.buffer.length) ∧
    ∀ before start after, operations = before ++ .finish start :: after →
      ∃ s p l, run ⟨w, []⟩ before = some s ∧ s.positions[start]? = some p ∧
        p ≤ s.writer.buffer.length ∧
        l = Length.encode (s.writer.buffer.length - p) ∧
        (s.writer.buffer.length < 2 ^ 64 → Length.Shortest l (s.writer.buffer.length - p)) ∧
        s.step (.finish start) =
          some ⟨⟨s.writer.buffer.take p ++ (l ++ s.writer.buffer.drop p)⟩, s.positions⟩ := by
  have inside : Inside ⟨w, []⟩ := by simp [Inside]
  constructor
  · rintro before between after rfl
    obtain ⟨s, first, insideFirst, -, paired⟩ := inside.run paired
    obtain ⟨t, next, -, later, -⟩ := insideFirst.run paired
    exact ⟨s, t, first, next, later.positions, later.buffer, fun p given =>
      insideFirst.mono given later.buffer⟩
  · rintro before start after rfl
    obtain ⟨s, first, insideFirst, -, named, -⟩ := inside.run paired
    obtain ⟨p, given, bound, done⟩ := insideFirst.finish named
    refine ⟨s, p, _, first, given, bound, rfl, fun fits => ?_, done⟩
    exact Length.shortest_encode (by omega)

def crossed : List Operation :=
  [.start 0x30, .start 0xA2, .element ⟨0x04, [0x61]⟩, .finish 0, .tag 0x05, .finish 1, .finish 0]

/-- Every finish is at the position that its start gave, also where octets have been put in front
of what stood there: the first start gets its second length before its first. -/
theorem crossed_finished : Paired 0 crossed ∧
    run ⟨empty, []⟩ crossed =
      some ⟨⟨[0x30, 0x07, 0x04, 0x05, 0xA2, 0x04, 0x01, 0x61, 0x05]⟩, [1, 2]⟩ ∧
    (∃ s t, run ⟨empty, []⟩ (crossed.take 3) = some s ∧ s.run (crossed.drop 3) = some t ∧
      s.writer.buffer.Sublist t.writer.buffer ∧ ∀ p ∈ s.positions, p ≤ t.writer.buffer.length) ∧
    ∃ s p, run ⟨empty, []⟩ (crossed.take 6) = some s ∧ s.positions[0]? = some p ∧
      p ≤ s.writer.buffer.length ∧
      Length.Shortest [0x07] (s.writer.buffer.length - p) := by
  have paired : Paired 0 crossed := by simp [crossed, Paired]
  obtain ⟨grows, inserts⟩ := finished_in_any_order empty crossed paired
  refine ⟨paired, rfl, ?_, ?_⟩
  · obtain ⟨s, t, first, next, -, kept, inside⟩ := grows (crossed.take 3) (crossed.drop 3) [] rfl
    exact ⟨s, t, first, next, kept, inside⟩
  · obtain ⟨s, p, l, first, given, bound, written, shortest, -⟩ := inserts (crossed.take 6) 0 [] rfl
    cases first
    cases given
    subst written
    exact ⟨_, _, rfl, rfl, bound, shortest (by decide)⟩

end Session
end Ldap.Ber.Writer
