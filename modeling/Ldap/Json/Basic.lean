import Ldap.Json.Number

/-! JSON values. An object is the list of its fields in document order. -/
namespace Ldap

inductive Json where
  | null
  | bool (b : Bool)
  | number (n : Json.Number)
  | string (s : String)
  | array (items : List Json)
  | object (fields : List (String × Json))

namespace Json

abbrev Fields := List (String × Json)

namespace Fields

def get? (name : String) (fields : Fields) : Option Json := fields.lookup name

def names (fields : Fields) : List String := fields.map Prod.fst

/-- A new field goes to the end; a repeated one keeps its place and takes the new value. -/
def put (name : String) (value : Json) : Fields → Fields
  | [] => [(name, value)]
  | (key, old) :: rest =>
    if key = name then (key, value) :: rest else (key, old) :: put name value rest

end Fields

def field? (name : String) : Json → Option Json
  | .object fields => Fields.get? name fields
  | _ => none

end Json
end Ldap
