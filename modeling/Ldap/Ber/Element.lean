import Ldap.Ber.Error
import Ldap.Ber.Length

/-! Elements: a tag and content octets. This module writes them and reads what the content holds;
`Ldap.Ber.Reader` finds them in an octet string. -/
namespace Ldap.Ber

structure Element where
  tag : Tag
  content : Octets
  deriving Repr, DecidableEq

namespace Element

def toBer (e : Element) : Octets := e.tag :: (Length.encode e.content.length ++ e.content)

def ofBool (tag : Tag) (b : Bool) : Element := ⟨tag, [if b then 0xFF else 0x00]⟩
def ofOctets (s : Octets) : Element := ⟨Tag.octetString, s⟩
def ofText (s : String) : Element := ofOctets (utf8 s)
def ofEnumerated (n : UInt8) : Element := ⟨Tag.enumerated, [n]⟩
def ofChildren (tag : Tag) (children : List Element) : Element := ⟨tag, children.flatMap toBer⟩

def expectTag (expected : Tag) (e : Element) : Except Error Element :=
  if e.tag = expected then .ok e else .error (.unexpectedTag expected e.tag)

/-- The one content octet. The tag is not looked at, so that implicitly tagged values read alike. -/
def single (value : SingleOctet) (e : Element) : Except Error UInt8 :=
  match e.content with
  | [b] => .ok b
  | s => .error (.invalidLength value s.length)

def bool (e : Element) : Except Error Bool := return (← e.single .boolean) != 0

def enumerated (e : Element) : Except Error UInt8 := e.single .enumerated

def text (e : Element) : Except Error String :=
  match e.content.text? with
  | some s => .ok s
  | none => .error .invalidUtf8

end Element
end Ldap.Ber
