import Ldap.DecodeError
import Std.Data.TreeMap

/-! What a registry counts, and the counters as a text exposition: for each family of samples a
line of help, a line with its type, and its samples, ordered by OID and then by the name of the
error's kind. -/
namespace Ldap
open Std (TreeMap)

structure Failures where
  oid : String
  kind : DecodeError.Kind
  deriving Repr, DecidableEq

def Failures.order : Failures → Failures → Ordering :=
  compareLex (compareOn Failures.oid) (compareOn (·.kind.name))

structure Metrics where
  registrations : UInt64 := 0
  overrides : UInt64 := 0
  passedThrough : UInt64 := 0
  decodedByOid : TreeMap String UInt64 := ∅
  failures : TreeMap Failures UInt64 Failures.order := ∅

namespace Metrics

def increment {α : Type} {order : α → α → Ordering} (key : α) (counts : TreeMap α UInt64 order) :
    TreeMap α UInt64 order :=
  counts.alter key fun n => some (n.getD 0 + 1)

def countRegistration (replaced : Bool) (m : Metrics) : Metrics :=
  { m with
    registrations := m.registrations + 1
    overrides := if replaced then m.overrides + 1 else m.overrides }

def countPassedThrough (m : Metrics) : Metrics := { m with passedThrough := m.passedThrough + 1 }

def countDecoded (oid : String) (m : Metrics) : Metrics :=
  { m with decodedByOid := increment oid m.decodedByOid }

def countError (oid : String) (kind : DecodeError.Kind) (m : Metrics) : Metrics :=
  { m with failures := increment ⟨oid, kind⟩ m.failures }

def decoded (oid : String) (m : Metrics) : UInt64 := m.decodedByOid.getD oid 0

def errors (oid : String) (kind : DecodeError.Kind) (m : Metrics) : UInt64 :=
  m.failures.getD ⟨oid, kind⟩ 0

/-! The exposition. -/

/-- A backslash and a quote in a label are escaped by a backslash; all else stands for itself. -/
def escapeLabel (s : String) : String :=
  .ofList (s.toList.flatMap fun c => if c = '\\' ∨ c = '"' then ['\\', c] else [c])

def label (name value : String) : String := name ++ "=\"" ++ escapeLabel value ++ "\""

def labels (ls : List String) : String := "\x7b" ++ ",".intercalate ls ++ "\x7d"

def family (name help : String) (samples : List (String × UInt64)) : List String :=
  [s!"# HELP {name} {help}", s!"# TYPE {name} counter"] ++
    samples.map fun (labels, n) => s!"{name}{labels} {n.toNat}"

def linesOf (decoded : List (String × UInt64)) (failures : List (Failures × UInt64)) (m : Metrics) :
    List String :=
  family "ldap_controls_registrations_total" "Total decoder registrations, including overrides."
    [("", m.registrations)] ++
  family "ldap_controls_overrides_total" "Registrations that replaced an existing decoder."
    [("", m.overrides)] ++
  family "ldap_controls_passthrough_total" "Controls left generic because no decoder is registered."
    [("", m.passedThrough)] ++
  family "ldap_controls_decoded_total" "Controls decoded into a typed representation by OID."
    (decoded.map fun (oid, n) => (labels [label "oid" oid], n)) ++
  family "ldap_controls_decode_errors_total" "Decode failures by OID and error kind."
    (failures.map fun (f, n) => (labels [label "oid" f.oid, label "kind" f.kind.name], n))

def lines (m : Metrics) : List String := m.linesOf m.decodedByOid.toList m.failures.toList

def render (m : Metrics) : String := .join (m.lines.map (· ++ "\n"))

end Metrics
end Ldap
