import Ldap.ControlObject
import Ldap.Json.Text
import Ldap.Text.Blank
import Ldap.Yaml.Text

/-! Settings, read from a YAML mapping. What is not there keeps its default and names that are not
known are passed over; a known name may stand once. -/
namespace Ldap
open Json

structure Settings where
  strictness : Strictness := .lenient
  registerDefaults : Bool := true
  logLevel : Option String := none
  deriving Repr, DecidableEq

namespace Settings

def setting? (name : String) (fields : List (String × Yaml)) : Option (Option Yaml) :=
  match fields.filter fun field => field.1 = name with
  | [] => some none
  | [(_, value)] => some (some value)
  | _ => none

def flag? (name : String) (default : Bool) (fields : List (String × Yaml)) : Option Bool := do
  match ← setting? name fields with
  | none => some default
  | some value => value.bool?

def group? (d : Yaml.Document) (name : String) (fields : List (String × Yaml)) :
    Option (List (String × Yaml)) := do
  match ← setting? name fields with
  | none => some []
  | some value => d.fields? value

def text? (name : String) (fields : List (String × Yaml)) : Option (Option String) := do
  match ← setting? name fields with
  | none => some none
  | some value => value.optionalText?

def ofYaml? (d : Yaml.Document) : Option Settings := do
  let fields ← d.fields? d.root
  let json ← group? d "json" fields
  let value ← flag? "strict" false json
  let topLevel ← flag? "strict_top_level" false json
  let registry ← group? d "registry" fields
  let registerDefaults ← flag? "register_defaults" true registry
  let logLevel ← text? "log_level" fields
  return ⟨⟨value, topLevel⟩, registerDefaults, logLevel⟩

def ofText? (s : String) : Option Settings :=
  if (Text.trim s.toList).isEmpty then some {} else do ofYaml? (← Yaml.ofText? s)

def toJson (s : Settings) : Json :=
  .object [("json", .object [("strict", .bool s.strictness.value),
    ("strict_top_level", .bool s.strictness.topLevel)]),
    ("registry", .object [("register_defaults", .bool s.registerDefaults)]),
    ("log_level", s.logLevel.elim .null .string)]

end Settings
end Ldap
