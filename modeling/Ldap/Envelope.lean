import Ldap.Ber.Reader
import Ldap.Ber.Writer
import Ldap.DecodeError

/-! The envelope of a control, `SEQUENCE { controlType, criticality DEFAULT FALSE, controlValue
OPTIONAL }`, and the `[0]` list of envelopes at the end of a message. An absent value and an empty
value differ. -/
namespace Ldap
open Ber

structure Envelope where
  oid : String
  critical : Bool
  value : Option Octets
  deriving Repr, DecidableEq

namespace Envelope

def members (c : Envelope) : List Element :=
  .ofText c.oid :: ((if c.critical then [.ofBool Tag.boolean true] else []) ++
    c.value.toList.map .ofOctets)

def toElement (c : Envelope) : Element := .ofChildren Tag.sequence c.members

def toBer (c : Envelope) : Octets := c.toElement.toBer

def write (c : Envelope) (w : Writer) : Option Writer :=
  let (position, w) := w.start Tag.sequence
  (c.members.foldl (fun w e => w.element e) w).finish position

def controlType : List Element → Except DecodeError (String × List Element)
  | [] => .error (.malformed none .emptySequence)
  | e :: rest =>
    if e.tag = Tag.octetString then do
      let oid ← blame none e.text
      if oid = "" then .error (.malformed none .emptyControlType) else .ok (oid, rest)
    else .error (.malformed none (.controlTypeTag e.tag))

/-- Once the OID is known, faults are blamed on it. -/
def ofMembers (members : List Element) : Except DecodeError Envelope := do
  let (oid, rest) ← controlType members
  let (critical, rest) ← blame oid (Element.optionalBool rest)
  let (value, rest) := Element.optionalOctets rest
  match rest with
  | [] => .ok ⟨oid, critical.getD false, value⟩
  | e :: _ => .error (.malformed oid (.strayElement e.tag))

def ofElement (e : Element) : Except DecodeError Envelope := do
  ofMembers (← blame none (e.expectTag Tag.sequence >>= Element.children))

def ofBer (s : Octets) : Except DecodeError Envelope := do
  ofElement (← blame none (Element.ofBer s))

def listTag : Tag := 0xA0

def listToBer (cs : List Envelope) : Octets := (Element.ofChildren listTag (cs.map toElement)).toBer

def writeList (cs : List Envelope) (w : Writer) : Option Writer := do
  let (position, w) := w.start listTag
  (← cs.foldlM (fun w c => c.write w) w).finish position

/-- All elements are found before the first of them is taken for an envelope. -/
def listOfBer (s : Octets) : Except DecodeError (List Envelope) := do
  let elements ← blame none (Element.ofBer s >>= Element.expectTag listTag >>= Element.children)
  elements.mapM ofElement

def expectOid (expected : String) (c : Envelope) : Except DecodeError Unit :=
  if c.oid = expected then .ok () else .error (.malformed c.oid (.foreignOid expected c.oid))

def display (c : Envelope) : String :=
  let value := match c.value with
    | some v => s!", value={v.hex}"
    | none => ""
  s!"Control(oid={c.oid}, isCritical={c.critical}{value})"

end Envelope
end Ldap
