import Ldap.Ber.Element

/-! Writing into a buffer. A constructed element may be started before its content is known:
`start` gives the position of the content, and `finish` puts the length of all that follows in
front of it. -/
namespace Ldap.Ber

structure Writer where
  buffer : Octets
  deriving Repr, DecidableEq

namespace Writer

def empty : Writer := ⟨[]⟩

def append (s : Octets) (w : Writer) : Writer := ⟨w.buffer ++ s⟩

def tag (t : Tag) (w : Writer) : Writer := w.append [t]

def element (e : Element) (w : Writer) : Writer := w.append e.toBer

def start (t : Tag) (w : Writer) : Nat × Writer :=
  let w := w.tag t
  (w.buffer.length, w)

/-- Refuses a position behind the end of the buffer. -/
def finish (position : Nat) (w : Writer) : Option Writer :=
  if position ≤ w.buffer.length then
    let content := w.buffer.drop position
    some ⟨w.buffer.take position ++ (Length.encode content.length ++ content)⟩
  else none

end Writer
end Ldap.Ber
