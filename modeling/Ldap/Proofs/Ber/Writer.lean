import Ldap.Ber.Writer

/-! A writer takes no octet back. A finish puts a length in front of what follows its position;
where only the content has been appended since the start, this makes of tag and content the
written element, whatever stood there before. -/
namespace Ldap.Ber.Writer

@[simp] theorem append_append (s t : Octets) (w : Writer) :
    (w.append s).append t = w.append (s ++ t) := by
  simp [append]

@[simp] theorem append_nil (w : Writer) : w.append [] = w := by
  simp [append]

@[simp] theorem foldl_element (es : List Element) (w : Writer) :
    es.foldl (fun w e => w.element e) w = w.append (es.flatMap Element.toBer) := by
  induction es generalizing w with
  | nil => simp
  | cons e es ih => rw [List.foldl_cons, ih, element, append_append, List.flatMap_cons]

def insertLength (position : Nat) (s : Octets) : Octets :=
  s.take position ++ (Length.encode (s.length - position) ++ s.drop position)

@[simp] theorem insertLength_append (s t : Octets) :
    insertLength s.length (s ++ t) = s ++ (Length.encode t.length ++ t) := by
  simp [insertLength]

theorem finish_eq {position : Nat} {w : Writer} (inside : position ≤ w.buffer.length) :
    w.finish position = some ⟨insertLength position w.buffer⟩ := by
  rw [finish, if_pos inside, insertLength, ← List.length_drop]

theorem sublist_insertLength (position : Nat) (s : Octets) :
    s.Sublist (insertLength position s) := by
  have kept :=
    (List.sublist_append_right (Length.encode (s.length - position)) (s.drop position)).append_left
    (s.take position)
  rwa [List.take_append_drop] at kept

@[simp] theorem finish_start (t : Tag) (content : Octets) (w : Writer) :
    ((w.start t).2.append content).finish (w.start t).1 = some (w.element ⟨t, content⟩) := by
  rw [finish_eq (by simp [start, tag, append])]
  change some (Writer.mk (insertLength (w.buffer ++ [t]).length (w.buffer ++ [t] ++ content))) = _
  rw [insertLength_append]
  simp [element, append, Element.toBer]

end Ldap.Ber.Writer
