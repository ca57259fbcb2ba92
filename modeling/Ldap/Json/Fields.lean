import Ldap.DecodeError
import Ldap.Json.Basic
import Ldap.Text.Base64
import Ldap.Text.Blank

/-! Reading the fields of an object by name and type. A field that is not there is `none`; a field
of another type is refused under its name. -/
namespace Ldap.Json.Fields

def bool? (name : String) (fields : Fields) : Except DecodeError (Option Bool) :=
  match fields.get? name with
  | none => .ok none
  | some (.bool b) => .ok (some b)
  | some _ => .error (.typeMismatch name .boolean)

def string? (name : String) (fields : Fields) : Except DecodeError (Option String) :=
  match fields.get? name with
  | none => .ok none
  | some (.string s) => .ok (some s)
  | some _ => .error (.typeMismatch name .string)

def stringItems (name : String) (i : Nat) : List Json → Except DecodeError (List String)
  | [] => .ok []
  | .string s :: rest => return s :: (← stringItems name (i + 1) rest)
  | _ :: _ => .error (.typeMismatch s!"{name}[{i}]" .string)

def strings? (name : String) (fields : Fields) : Except DecodeError (Option (List String)) :=
  match fields.get? name with
  | none => .ok none
  | some (.array items) => some <$> stringItems name 0 items
  | some _ => .error (.typeMismatch name .stringArray)

def ofBase64 (name text : String) : Except DecodeError Octets :=
  match Text.Base64.decode? (Text.trim text.toList) with
  | some s => .ok s
  | none => .error (.typeMismatch name .base64)

def octets? (name : String) (fields : Fields) : Except DecodeError (Option Octets) :=
  match fields.get? name with
  | none => .ok none
  | some (.string s) => some <$> ofBase64 name s
  | some _ => .error (.typeMismatch name .base64)

def unknown (known : List String) (fields : Fields) : List String :=
  fields.names.filter fun name => !known.contains name

def refuseUnknown (location : Location) (known : List String) (fields : Fields) :
    Except DecodeError Unit :=
  match fields.unknown known with
  | [] => .ok ()
  | name :: _ => .error (.unrecognizedField name location)

end Ldap.Json.Fields
