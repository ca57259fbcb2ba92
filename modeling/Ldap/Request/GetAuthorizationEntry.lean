import Ldap.Envelope
import Ldap.Json.Fields
import Ldap.ControlObject

/-! The value of the get authorization entry request: which entries to return with a bind response
and, if not all, which of their attributes.

`SEQUENCE { [0] BOOLEAN DEFAULT TRUE, [1] BOOLEAN DEFAULT TRUE, [2] SEQUENCE OF OCTET STRING
OPTIONAL }`. Members at their default are not written; they are read in any order, each at most
once. -/
namespace Ldap
open Ber Json

structure GetAuthorizationEntry where
  authn : Bool := true
  authz : Bool := true
  /-- Empty for all user attributes. -/
  attributes : List String := []
  deriving Repr, DecidableEq

namespace GetAuthorizationEntry

def oid : String := "1.3.6.1.4.1.30221.2.5.6"

def authnTag : Tag := .context 0
def authzTag : Tag := .context 1
def attributesTag : Tag := .contextConstructed 2

def members (r : GetAuthorizationEntry) : List Element :=
  (if r.authn then [] else [.ofBool authnTag false]) ++
  (if r.authz then [] else [.ofBool authzTag false]) ++
  (if r.attributes = [] then [] else [.ofChildren attributesTag (r.attributes.map .ofText)])

def value (r : GetAuthorizationEntry) : Option Octets :=
  if r = {} then none else some (Element.ofChildren Tag.sequence r.members).toBer

def readAttributes (e : Element) : Except Ber.Error (List String) := do
  (← e.children).mapM fun a => do (← a.expectTag Tag.octetString).text

def addMember (r : GetAuthorizationEntry) (e : Element) :
    Except DecodeError GetAuthorizationEntry :=
  if e.tag = authnTag then return { r with authn := ← blame oid e.bool }
  else if e.tag = authzTag then return { r with authz := ← blame oid e.bool }
  else if e.tag = attributesTag then return { r with attributes := ← blame oid (readAttributes e) }
  else .error (.malformed oid (.unrecognizedElement e.tag))

/-- Takes members on from left to right; `seen` holds the tags before. -/
def addMembers (seen : List Tag) (r : GetAuthorizationEntry) :
    List Element → Except DecodeError GetAuthorizationEntry
  | [] => .ok r
  | e :: rest =>
    if e.tag ∈ seen then .error (.malformed oid (.duplicateElement e.tag))
    else do addMembers (e.tag :: seen) (← r.addMember e) rest

def ofBer (s : Octets) : Except DecodeError GetAuthorizationEntry := do
  addMembers [] {} (← blame oid (Element.ofBer s >>= Element.expectTag Tag.sequence >>=
    Element.children))

def fieldNames : List String :=
  ["include-authentication-entry", "include-authorization-entry", "attributes"]

def ofFields (strictness : Strictness) (fields : Fields) :
    Except DecodeError GetAuthorizationEntry := do
  let authn ← fields.bool? "include-authentication-entry"
  let authz ← fields.bool? "include-authorization-entry"
  let attributes ← fields.strings? "attributes"
  strictness.checkValue fieldNames fields
  return ⟨authn.getD true, authz.getD true, attributes.getD []⟩

def toFields (r : GetAuthorizationEntry) : Fields :=
  [("include-authentication-entry", .bool r.authn),
    ("include-authorization-entry", .bool r.authz)] ++
    if r.attributes = [] then [] else [("attributes", .array (r.attributes.map .string))]

def form (r : GetAuthorizationEntry) : ValueForm :=
  if r = {} then .absent else .structured r.toFields

end GetAuthorizationEntry
end Ldap
