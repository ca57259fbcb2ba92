import Ldap.Envelope
import Ldap.Json.Fields

/-! The JSON object of a control: `oid`, an informational `control-name`, `criticality`, and the
value as base64 text of its octets or as an object of its fields, never both. -/
namespace Ldap
open Json

structure Strictness where
  value : Bool
  topLevel : Bool
  deriving Repr, DecidableEq

namespace Strictness

def lenient : Strictness := ⟨false, false⟩

def join (p q : Strictness) : Strictness := ⟨p.value || q.value, p.topLevel || q.topLevel⟩

def checkValue (p : Strictness) (known : List String) (fields : Fields) : Except DecodeError Unit :=
  if p.value then fields.refuseUnknown .structuredValue known else .ok ()

end Strictness

inductive ValuePolicy where
  | forbidden
  | optional
  | required
  deriving Repr, DecidableEq

inductive ValueForm where
  | absent
  | raw (octets : Octets)
  | structured (fields : Fields)

namespace ValueForm

def ofValue : Option Octets → ValueForm
  | none => .absent
  | some s => .raw s

def check (oid : String) (policy : ValuePolicy) : ValueForm → Except DecodeError Unit
  | .absent => if policy = .required then .error (.conflictingValue oid .noForm) else .ok ()
  | _ => if policy = .forbidden then .error (.unexpectedValue oid) else .ok ()

end ValueForm

structure ControlObject where
  oid : String
  name : Option String
  critical : Bool
  value : ValueForm

namespace ControlObject

def fieldNames : List String := ["oid", "control-name", "criticality", "value-base64", "value-json"]

def readOid (fields : Fields) : Except DecodeError String :=
  match fields.get? "oid" with
  | none => .error (.missingField "oid")
  | some (.string s) => if s = "" then .error (.typeMismatch "oid" .nonEmptyString) else .ok s
  | some _ => .error (.typeMismatch "oid" .nonEmptyString)

def readCriticality (fields : Fields) : Except DecodeError Bool :=
  match fields.get? "criticality" with
  | none => .error (.missingField "criticality")
  | some (.bool b) => .ok b
  | some _ => .error (.typeMismatch "criticality" .boolean)

def readValue (oid : String) (fields : Fields) : Except DecodeError ValueForm :=
  match fields.get? "value-base64", fields.get? "value-json" with
  | some _, some _ => .error (.conflictingValue oid .bothForms)
  | some (.string s), none => .raw <$> Fields.ofBase64 "value-base64" s
  | some _, none => .error (.typeMismatch "value-base64" .base64)
  | none, some (.object value) => .ok (.structured value)
  | none, some _ => .error (.typeMismatch "value-json" .object)
  | none, none => .ok .absent

/-- The fields of a structured value are not looked at here. -/
def ofFields (policy : ValuePolicy) (strictness : Strictness) (fields : Fields) :
    Except DecodeError ControlObject := do
  let oid ← readOid fields
  let name ← fields.string? "control-name"
  let critical ← readCriticality fields
  let value ← readValue oid fields
  value.check oid policy
  if strictness.topLevel then fields.refuseUnknown .controlObject fieldNames
  return ⟨oid, name, critical, value⟩

def ofJson (policy : ValuePolicy) (strictness : Strictness) :
    Json → Except DecodeError ControlObject
  | .object fields => ofFields policy strictness fields
  | _ => .error (.typeMismatch "control" .object)

def valueFields : ValueForm → Fields
  | .absent => []
  | .raw s => [("value-base64", .string (.ofList (Text.Base64.encode s)))]
  | .structured fields => [("value-json", .object fields)]

def toFields (c : ControlObject) : Fields :=
  ("oid", .string c.oid) ::
    ((c.name.toList.map fun name => ("control-name", .string name)) ++
      ("criticality", .bool c.critical) :: valueFields c.value)

def toJson (c : ControlObject) : Json := .object c.toFields

def expectOid (expected : String) (c : ControlObject) : Except DecodeError Unit :=
  if c.oid = expected then .ok () else .error (.typeMismatch "oid" .typeOid)

end ControlObject

namespace Envelope

/-- Without knowledge of its type, a control is named by its OID and has a raw value. -/
def toObject (c : Envelope) : ControlObject := ⟨c.oid, some c.oid, c.critical, .ofValue c.value⟩

def toJson (c : Envelope) : Json := c.toObject.toJson

def ofObject (c : ControlObject) : Except DecodeError Envelope :=
  match c.value with
  | .absent => .ok ⟨c.oid, c.critical, none⟩
  | .raw s => .ok ⟨c.oid, c.critical, some s⟩
  | .structured _ => .error (.conflictingValue c.oid .structuredWithoutDecoder)

def ofJson (strictness : Strictness) (v : Json) : Except DecodeError Envelope := do
  ofObject (← ControlObject.ofJson .optional strictness v)

end Envelope
end Ldap
