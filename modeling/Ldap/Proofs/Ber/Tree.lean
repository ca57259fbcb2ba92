import Ldap.Proofs.Ber.Element
import Ldap.Proofs.Ber.Writer
import Ldap.Proofs.Outcome

/-! Elements in elements. A tree is written from its root down, the length of a node being put in
front of the members once they are there, and it is read from its root down by splitting one
content after the other. -/
namespace Ldap.Ber

inductive Tree where
  | leaf (tag : Tag) (content : Octets)
  | node (tag : Tag) (members : List Tree)

abbrev Forest := List Tree

inductive Shape where
  | leaf
  | node (members : List Shape)

namespace Tree

def tag : Tree → Tag
  | leaf tag _ => tag
  | node tag _ => tag

end Tree

mutual
def Tree.content : Tree → Octets
  | .leaf _ content => content
  | .node _ members => Forest.octets members
def Forest.octets : Forest → Octets
  | [] => []
  | t :: ts => (Element.mk t.tag (Tree.content t)).toBer ++ Forest.octets ts
end

mutual
def Tree.tags : Tree → List Tag
  | .leaf tag _ => [tag]
  | .node tag members => tag :: Forest.tags members
def Forest.tags : Forest → List Tag
  | [] => []
  | t :: ts => Tree.tags t ++ Forest.tags ts
end

mutual
def Tree.shape : Tree → Shape
  | .leaf _ _ => .leaf
  | .node _ members => .node (Forest.shapes members)
def Forest.shapes : Forest → List Shape
  | [] => []
  | t :: ts => Tree.shape t :: Forest.shapes ts
end

mutual
def Tree.write : Tree → Writer → Option Writer
  | .leaf tag content, w => some (w.element ⟨tag, content⟩)
  | .node tag members, w => do (← Forest.write members (w.start tag).2).finish (w.start tag).1
def Forest.write : Forest → Writer → Option Writer
  | [], w => some w
  | t :: ts, w => do Forest.write ts (← Tree.write t w)
end

mutual
def Shape.read : Shape → Element → Option Tree
  | .leaf, e => some (.leaf e.tag e.content)
  | .node members, e => do return .node e.tag (← Shape.readAll members (← e.children.toOption))
def Shape.readAll : List Shape → List Element → Option Forest
  | [], [] => some []
  | shape :: shapes, e :: es => do return (← Shape.read shape e) :: (← Shape.readAll shapes es)
  | _, _ => none
end

def Shape.ofBer? (shape : Shape) (s : Octets) : Option Tree :=
  do shape.read (← (Element.ofBer s).toOption)

namespace Tree

def toElement (t : Tree) : Element := ⟨t.tag, t.content⟩

def toBer (t : Tree) : Octets := t.toElement.toBer

def Single (t : Tree) : Prop := ∀ tag ∈ t.tags, Tag.isMultiOctet tag = false

instance (t : Tree) : Decidable t.Single :=
  inferInstanceAs (Decidable (∀ tag ∈ t.tags, Tag.isMultiOctet tag = false))

end Tree

theorem Forest.octets_eq (ts : Forest) :
    Forest.octets ts = (ts.map Tree.toElement).flatMap Element.toBer := by
  induction ts with
  | nil => rfl
  | cons t ts ih => rw [Forest.octets, ih, List.map_cons, List.flatMap_cons, Tree.toElement]

mutual
@[simp] theorem Tree.write_eq : ∀ (t : Tree) (w : Writer), t.write w = some (w.append t.toBer)
  | .leaf _ _, _ => rfl
  | .node tag members, w => by
    rw [Tree.write, Forest.write_eq members (w.start tag).2, Option.bind_eq_bind, Option.bind_some,
      Writer.finish_start]
    rfl
@[simp] theorem Forest.write_eq :
    ∀ (ts : Forest) (w : Writer), Forest.write ts w = some (w.append (Forest.octets ts))
  | [], w => by rw [Forest.write, Forest.octets, Writer.append_nil]
  | t :: ts, w => by
    rw [Forest.write, Tree.write_eq t w, Option.bind_eq_bind, Option.bind_some, Forest.write_eq ts,
      Writer.append_append]
    rfl
end

theorem Tree.tag_mem_tags (t : Tree) : t.tag ∈ t.tags := by
  cases t <;> exact List.mem_cons_self

theorem Forest.single_members {ts : Forest}
    (single : ∀ tag ∈ Forest.tags ts, Tag.isMultiOctet tag = false) :
    ∀ e ∈ ts.map Tree.toElement, Tag.isMultiOctet e.tag = false := by
  induction ts with
  | nil => simp
  | cons t ts ih =>
    rw [Forest.tags, List.forall_mem_append] at single
    rw [List.map_cons, List.forall_mem_cons]
    exact ⟨single.1 _ t.tag_mem_tags, ih single.2⟩

mutual
theorem Tree.read_toElement :
    ∀ t : Tree, t.Single → t.content.length < 2 ^ 32 → t.shape.read t.toElement = some t
  | .leaf _ _, _, _ => rfl
  | .node tag members, single, small => by
    have below : ∀ tag ∈ Forest.tags members, Tag.isMultiOctet tag = false :=
      fun tag there => single tag (List.mem_cons_of_mem _ there)
    have split : (Tree.node tag members).toElement.children = .ok (members.map Tree.toElement) := by
      rw [Tree.content, Forest.octets_eq] at small
      rw [Element.children, Tree.toElement, Tree.content, Forest.octets_eq]
      exact Element.sequence_flatMap_toBer (Forest.single_members below) small
    rw [Tree.shape, Shape.read, split]
    change
      (do return Tree.node tag (← Shape.readAll (Forest.shapes members)
        (members.map Tree.toElement))) = _
    rw [Forest.readAll_toElement members below small]
    rfl
theorem Forest.readAll_toElement :
    ∀ ts : Forest, (∀ tag ∈ Forest.tags ts, Tag.isMultiOctet tag = false) →
    (Forest.octets ts).length < 2 ^ 32 →
    Shape.readAll (Forest.shapes ts) (ts.map Tree.toElement) = some ts
  | [], _, _ => rfl
  | t :: ts, single, small => by
    rw [Forest.tags, List.forall_mem_append] at single
    have inside : t.content.length ≤ (Element.mk t.tag t.content).toBer.length :=
      t.toElement.content_le_toBer
    rw [Forest.octets, List.length_append] at small
    rw [Forest.shapes, List.map_cons, Shape.readAll, Tree.read_toElement t single.1 (by omega),
      Forest.readAll_toElement ts single.2 (by omega)]
    rfl
end

theorem Element.single_of_sequence {s : Octets} {es : List Element} (h : sequence s = .ok es) :
    ∀ e ∈ es, Tag.isMultiOctet e.tag = false := by
  obtain ⟨ds, spelled, -⟩ := sequence_iff.1 h
  clear h
  induction spelled with
  | nil => simp
  | cons first _ ih => exact List.forall_mem_cons.2 ⟨first.single, ih⟩

/-! Whatever spelling a tree was read from, it is written with no more octets. -/

mutual
theorem Shape.read_some :
    ∀ (shape : Shape) {e : Element} {t : Tree}, Tag.isMultiOctet e.tag = false →
    shape.read e = some t → t.Single ∧ t.content.length ≤ e.content.length
  | .leaf, e, _, single, read => by
    cases read
    exact ⟨by simpa [Tree.Single, Tree.tags] using single, Nat.le_refl _⟩
  | .node members, e, t, single, read => by
    rw [Shape.read] at read
    obtain ⟨es, split, read⟩ := Option.bind_eq_some_iff.1 read
    obtain ⟨ts, opened, read⟩ := Option.bind_eq_some_iff.1 read
    cases read
    rw [toOption_eq_some_iff, Element.children] at split
    obtain ⟨below, fewer⟩ := Shape.readAll_some members (Element.single_of_sequence split) opened
    refine ⟨?_, Nat.le_trans fewer (Element.sequence_length_le split)⟩
    rw [Tree.Single, Tree.tags, List.forall_mem_cons]
    exact ⟨single, below⟩
theorem Shape.readAll_some : ∀ (shapes : List Shape) {es : List Element} {ts : Forest},
    (∀ e ∈ es, Tag.isMultiOctet e.tag = false) → Shape.readAll shapes es = some ts →
      (∀ tag ∈ Forest.tags ts, Tag.isMultiOctet tag = false) ∧
        (Forest.octets ts).length ≤ (es.flatMap Element.toBer).length
  | [], [], _, _, read => by
    cases read
    exact ⟨by simp [Forest.tags], Nat.le_refl _⟩
  | shape :: shapes, e :: es, _, single, read => by
    rw [List.forall_mem_cons] at single
    rw [Shape.readAll] at read
    obtain ⟨t, first, read⟩ := Option.bind_eq_some_iff.1 read
    obtain ⟨ts, others, read⟩ := Option.bind_eq_some_iff.1 read
    cases read
    obtain ⟨own, shorter⟩ := Shape.read_some shape single.1 first
    obtain ⟨below, fewer⟩ := Shape.readAll_some shapes single.2 others
    have whole : t.toElement.toBer.length ≤ e.toBer.length := Element.toBer_length_mono shorter
    rw [Forest.tags, List.forall_mem_append, Forest.octets, List.flatMap_cons, List.length_append,
      List.length_append]
    exact ⟨⟨own, below⟩, Nat.add_le_add whole fewer⟩
  | [], _ :: _, _, _, read => by cases read
  | _ :: _, [], _, _, read => by cases read
end

namespace Tree

theorem ofBer?_toBer {t : Tree} (single : t.Single) (small : t.content.length < 2 ^ 32) :
    t.shape.ofBer? t.toBer = some t := by
  have read : Element.ofBer t.toBer = .ok t.toElement :=
    Element.ofBer_toBer (single _ t.tag_mem_tags) small
  rw [Shape.ofBer?, read]
  exact t.read_toElement single small

theorem ofBer?_some {shape : Shape} {s : Octets} {t : Tree} (h : shape.ofBer? s = some t) :
    t.Single ∧ t.content.length < 2 ^ 32 ∧ t.toBer.length ≤ s.length := by
  obtain ⟨e, read, opened⟩ := Option.bind_eq_some_iff.1 h
  have spelled := Element.ofBer_iff.1 (toOption_eq_some_iff.1 read)
  obtain ⟨single, shorter⟩ := shape.read_some spelled.single opened
  have whole : t.toBer.length ≤ e.toBer.length := Element.toBer_length_mono shorter
  exact ⟨single, Nat.lt_of_le_of_lt shorter spelled.content_lt,
    Nat.le_trans whole spelled.toBer_length_le⟩

/-- Leaves that are written whole, and nodes that are started, filled with their members and
finished where they were started, put behind the buffer the tag of each element, the shortest
length octets of its content and the content, and nothing that was in the buffer changes. If no
tag announces a longer form and the contents have less than four gigabytes, as the outermost has,
then the elements are read back level by level. There is no other tree that is read from any
octets, and none is read from fewer octets than it is written with. -/
theorem written_tree_read_back (t : Tree) :
    (∀ w, t.write w = some ⟨w.buffer ++ t.toBer⟩) ∧
    (∀ tag b w, (leaf tag [if b then 0xFF else 0x00]).write w = some (w.element (.ofBool tag b))) ∧
    (t.Single → t.content.length < 2 ^ 32 → t.shape.ofBer? t.toBer = some t) ∧
    ∀ (shape : Shape) (s : Octets), shape.ofBer? s = some t →
      t.Single ∧ t.content.length < 2 ^ 32 ∧ t.toBer.length ≤ s.length :=
  ⟨t.write_eq, fun _ _ _ => rfl, ofBer?_toBer, fun _ _ => ofBer?_some⟩

def nested : Tree :=
  node 0x30 [leaf 0x80 [0xFF], node 0xA2 [leaf 0x04 [], leaf 0x04 (.replicate 130 0x61)],
    node 0x31 []]

theorem nested_read_back :
    nested.write ⟨[0x05, 0x00]⟩ = some ⟨[0x05, 0x00] ++ nested.toBer⟩ ∧
    nested.toBer.take 9 = [0x30, 0x81, 0x8F, 0x80, 0x01, 0xFF, 0xA2, 0x81, 0x87] ∧
    nested.shape.ofBer? nested.toBer = some nested ∧
    nested.toBer.length ≤ (0x30 :: 0x82 :: 0x00 :: 0x8F :: nested.content).length := by
  obtain ⟨written, -, read, shortest⟩ := written_tree_read_back nested
  have single : nested.Single := by decide +kernel
  have small : nested.content.length < 2 ^ 32 := by decide +kernel
  have longer : Length.Spells [0x82, 0x00, 0x8F] nested.content.length := by
    have length : nested.content.length = Length.value [0x00, 0x8F] := by decide +kernel
    rw [length]
    exact .long [0x00, 0x8F] nofun (by decide)
  have spelled : Element.ofBer (0x30 :: 0x82 :: 0x00 :: 0x8F :: nested.content) =
      .ok nested.toElement :=
    Element.ofBer_iff.2 (.intro 0x30 _ _ rfl longer)
  have respelled : nested.shape.ofBer? (0x30 :: 0x82 :: 0x00 :: 0x8F :: nested.content) =
      some nested := by
    rw [Shape.ofBer?, spelled]
    exact nested.read_toElement single small
  exact ⟨written _, by decide +kernel, read single small, (shortest _ _ respelled).2.2⟩

end Tree
end Ldap.Ber
