import Ldap.CommandLine.Arguments
import Ldap.Json.Document
import Ldap.Registry.Basic
import Ldap.Settings

/-! The commands. Controls are printed in order, each as a line for the reader and as its JSON
object. A JSON document is printed control by control up to the first one that fails; encoded
controls are printed only when all of them are decoded. -/
namespace Ldap
open CommandLine

namespace Decoded

def report (d : Decoded) : String :=
  d.control.display ++ "\n" ++ d.control.toJson.toPretty ++ "\n"

theorem report_eq (d : Decoded) :
    d.report = d.control.display ++ "\n" ++ d.control.toJson.toPretty ++ "\n" := rfl

theorem join_report (ds : List Decoded) :
    String.join (ds.map report) =
      .join (ds.map fun d => d.control.display ++ "\n" ++ d.control.toJson.toPretty ++ "\n") :=
  congrArg String.join (List.map_congr_left fun d _ => d.report_eq)

end Decoded

namespace CommandLine

/-- What a run can read; nothing stands for what cannot be read as text. -/
structure Inputs where
  standard : Option String
  file : String → Option String

inductive Failure where
  | unreadableSettings (path : String)
  | invalidSettings (path : String)
  | unreadable (file : String)
  | notJson
  | undecodableItem (index : Nat) (cause : DecodeError)
  | notHex (cause : Octets.HexError)
  | noOctets
  | invalidList (cause : DecodeError)
  | invalidControl (cause : DecodeError)
  | undecodable (cause : DecodeError)
  deriving Repr, DecidableEq

def hexFault : Octets.HexError → String
  | .oddLength => "Odd number of digits"
  | .invalidDigit octet position =>
    let digit := Text.quote '\'' [Char.ofNat octet.toNat]
    s!"Invalid character {digit} at position {position}"

def Failure.messages : Failure → List String
  | .unreadableSettings path => [s!"Failed to read config file {path}"]
  | .invalidSettings path => [s!"Invalid config file {path}"]
  | .unreadable file => ["Failed to read " ++ if file = "-" then "stdin" else file]
  | .notJson => ["Input is not valid JSON"]
  | .undecodableItem index cause => [s!"Control #{index} could not be decoded", cause.message]
  | .notHex cause => ["Input is not valid hex", hexFault cause]
  | .noOctets => ["No BER data given"]
  | .invalidList cause => ["Invalid controls list", cause.message]
  | .invalidControl cause => ["Invalid control", cause.message]
  | .undecodable cause => ["Control could not be decoded", cause.message]

/-- What a command printed, and the registry after it unless it failed. -/
abbrev Printed := String × Except Failure Registry

def printItems (strictness : Strictness) (index : Nat) : List Json → Registry → Printed
  | [], r => ("", .ok r)
  | v :: vs, r =>
    match r.decodeJson strictness v with
    | (.error e, _) => ("", .error (.undecodableItem index e))
    | (.ok d, r) =>
      let (rest, result) := printItems strictness (index + 1) vs r
      (d.report ++ rest, result)

def items : Json → List Json
  | .array vs => vs
  | v => [v]

def printJson (strictness : Strictness) (s : String) (r : Registry) : Printed :=
  match Json.ofText? s with
  | some v => printItems strictness 0 (items v) r
  | none => ("", .error .notJson)

def isAsciiBlank (c : Char) : Bool := c == ' ' || c == '\t' || c == '\n' || c == '\x0c' || c == '\r'

def ofSpelling (hex : String) : Except Failure Octets :=
  match Octets.ofHex (.ofList (hex.toList.filter (!isAsciiBlank ·))) with
  | .ok s => .ok s
  | .error e => .error (.notHex e)

def envelopes (s : Octets) : Except Failure (List Envelope) :=
  match s with
  | [] => .error .noOctets
  | tag :: _ =>
    if tag = Envelope.listTag then
      match Envelope.listOfBer s with
      | .ok cs => .ok cs
      | .error e => .error (.invalidList e)
    else
      match Envelope.ofBer s with
      | .ok c => .ok [c]
      | .error e => .error (.invalidControl e)

def printEnvelopes (cs : List Envelope) (r : Registry) : Printed :=
  match r.decodeAll cs with
  | (.ok ds, r) => (.join (ds.map Decoded.report), .ok r)
  | (.error e, _) => ("", .error (.undecodable e))

def printBer (hex : String) (r : Registry) : Printed :=
  match ofSpelling hex >>= envelopes with
  | .ok cs => printEnvelopes cs r
  | .error e => ("", .error e)

def readSettings (inputs : Inputs) : Option String → Except Failure Settings
  | none => .ok {}
  | some path =>
    match inputs.file path with
    | none => .error (.unreadableSettings path)
    | some s =>
      match Settings.ofText? s with
      | some settings => .ok settings
      | none => .error (.invalidSettings path)

def read (inputs : Inputs) (file : String) : Option String :=
  if file = "-" then inputs.standard else inputs.file file

def initialRegistry (settings : Settings) : Registry :=
  if settings.registerDefaults then .standard else .empty

/-- Options ask for strictness in addition to the settings. -/
def runCommand (settings : Settings) (a : Arguments) (inputs : Inputs) : Printed :=
  match a.command with
  | .json file =>
    match read inputs file with
    | some s =>
      printJson (settings.strictness.join a.options.strictness) s (initialRegistry settings)
    | none => ("", .error (.unreadable file))
  | .ber hex => printBer hex (initialRegistry settings)

def printMetrics (wanted : Bool) : Printed → String × Option Failure
  | (printed, .ok r) => (if wanted then printed ++ r.metrics.render else printed, none)
  | (printed, .error e) => (printed, some e)

/-- What the program prints, and why it failed if it did. Settings are read before anything else. -/
def run (a : Arguments) (inputs : Inputs) : String × Option Failure :=
  match readSettings inputs a.options.settings with
  | .ok settings => printMetrics a.options.metrics (runCommand settings a inputs)
  | .error e => ("", some e)

end CommandLine
end Ldap
