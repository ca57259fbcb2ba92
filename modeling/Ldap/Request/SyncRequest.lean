import Ldap.Envelope
import Ldap.Json.Fields
import Ldap.ControlObject

/-! The value of the content synchronization request, `SEQUENCE { mode ENUMERATED, cookie OCTET
STRING OPTIONAL, reloadHint BOOLEAN DEFAULT FALSE }`, in this order. -/
namespace Ldap
open Ber Json

inductive SyncMode where
  | refreshOnly
  | refreshAndPersist
  deriving Repr, DecidableEq

structure SyncRequest where
  mode : SyncMode := .refreshOnly
  cookie : Option Octets := none
  reloadHint : Bool := false
  deriving Repr, DecidableEq

namespace SyncRequest

def oid : String := "1.3.6.1.4.1.4203.1.9.1.1"

end SyncRequest

namespace SyncMode

def code : SyncMode → UInt8
  | .refreshOnly => 1
  | .refreshAndPersist => 3

/-- Code 0 is unused and code 2 is reserved. -/
def ofCode (n : UInt8) : Except DecodeError SyncMode :=
  if n = 1 then .ok .refreshOnly
  else if n = 3 then .ok .refreshAndPersist
  else .error (.malformed SyncRequest.oid (.invalidMode n))

def name : SyncMode → String
  | .refreshOnly => "refresh-only"
  | .refreshAndPersist => "refresh-and-persist"

def ofName (s : String) : Except DecodeError SyncMode :=
  if s = "refresh-only" then .ok .refreshOnly
  else if s = "refresh-and-persist" then .ok .refreshAndPersist
  else .error (.typeMismatch "mode" .syncMode)

end SyncMode

namespace SyncRequest

def members (r : SyncRequest) : List Element :=
  .ofEnumerated r.mode.code :: (r.cookie.toList.map .ofOctets ++
    if r.reloadHint then [.ofBool Tag.boolean true] else [])

def value (r : SyncRequest) : Octets := (Element.ofChildren Tag.sequence r.members).toBer

def readMode : List Element → Except DecodeError (SyncMode × List Element)
  | [] => .error (.malformed oid .missingMode)
  | e :: rest => do
    let n ← blame oid (e.expectTag Tag.enumerated >>= Element.enumerated)
    return (← SyncMode.ofCode n, rest)

def ofMembers (members : List Element) : Except DecodeError SyncRequest := do
  let (mode, rest) ← readMode members
  let (cookie, rest) := Element.optionalOctets rest
  let (hint, rest) ← blame oid (Element.optionalBool rest)
  match rest with
  | [] => .ok ⟨mode, cookie, hint.getD false⟩
  | e :: _ => .error (.malformed oid (.unrecognizedElement e.tag))

def ofBer (s : Octets) : Except DecodeError SyncRequest := do
  ofMembers (← blame oid (Element.ofBer s >>= Element.expectTag Tag.sequence >>= Element.children))

def fieldNames : List String := ["mode", "cookie", "reload-hint"]

def ofFields (strictness : Strictness) (fields : Fields) : Except DecodeError SyncRequest := do
  let some name ← fields.string? "mode" | .error (.missingField "mode")
  let mode ← SyncMode.ofName name
  let cookie ← fields.octets? "cookie"
  let hint ← fields.bool? "reload-hint"
  strictness.checkValue fieldNames fields
  return ⟨mode, cookie, hint.getD false⟩

def toFields (r : SyncRequest) : Fields :=
  ("mode", .string r.mode.name) ::
    ((r.cookie.toList.map fun s => ("cookie", .string (.ofList (Text.Base64.encode s)))) ++
      [("reload-hint", .bool r.reloadHint)])

end SyncRequest
end Ldap
