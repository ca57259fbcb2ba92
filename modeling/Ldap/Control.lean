import Ldap.Request.Basic

/-! Controls: a request with its criticality, or an envelope whose value is not interpreted. -/
namespace Ldap

structure RequestControl where
  critical : Bool
  request : Request
  deriving Repr, DecidableEq

namespace RequestControl
open Request

def kind (c : RequestControl) : Kind := c.request.kind

def toEnvelope (c : RequestControl) : Envelope := ⟨c.kind.oid, c.critical, c.request.value⟩

def toObject (c : RequestControl) : ControlObject :=
  ⟨c.kind.oid, some c.kind.name, c.critical, c.request.form⟩

def ofEnvelope (kind : Kind) (c : Envelope) : Except DecodeError RequestControl := do
  c.expectOid kind.oid
  return ⟨c.critical, ← ofValue kind c.value⟩

def ofJson (kind : Kind) (strictness : Strictness) (v : Json) :
    Except DecodeError RequestControl := do
  let c ← ControlObject.ofJson kind.policy strictness v
  c.expectOid kind.oid
  return ⟨c.critical, ← ofForm kind strictness c.value⟩

def find (kind : Kind) (cs : List Envelope) : Except DecodeError (Option RequestControl) :=
  match cs.find? (·.oid = kind.oid) with
  | some c => some <$> ofEnvelope kind c
  | none => .ok none

def standard : Kind → RequestControl
  | .getAuthorizationEntry => ⟨false, .getAuthorizationEntry {}⟩
  | .suppressReferentialIntegrity => ⟨true, .suppressReferentialIntegrity⟩
  | .replicationRepair => ⟨true, .replicationRepair⟩
  | .sync => ⟨false, .sync {}⟩

def display (c : RequestControl) : String :=
  match c.request with
  | .getAuthorizationEntry r =>
    s!"GetAuthorizationEntryRequestControl(isCritical={c.critical}, includeAuthNEntry={r.authn}, " ++
      s!"includeAuthZEntry={r.authz}, attributes=" ++ "\x7b" ++ ", ".intercalate r.attributes ++
        "\x7d)"
  | .suppressReferentialIntegrity =>
    s!"SuppressReferentialIntegrityUpdatesRequestControl(isCritical={c.critical})"
  | .replicationRepair => "ReplicationRepairRequestControl()"
  | .sync r =>
    let cookie := match r.cookie with
      | some s => s!", cookie={s.hex}"
      | none => ""
    s!"SyncRequestControl(isCritical={c.critical}, mode={r.mode.name}{cookie}, reloadHint={r.reloadHint})"

end RequestControl

inductive Control where
  | request (control : RequestControl)
  | plain (envelope : Envelope)
  deriving Repr, DecidableEq

namespace Control

def toEnvelope : Control → Envelope
  | .request c => c.toEnvelope
  | .plain c => c

def toObject : Control → ControlObject
  | .request c => c.toObject
  | .plain c => c.toObject

def toJson (c : Control) : Json := c.toObject.toJson

def oid (c : Control) : String := c.toEnvelope.oid

def critical (c : Control) : Bool := c.toEnvelope.critical

def value (c : Control) : Option Octets := c.toEnvelope.value

/-- Informational only: a control is never recognised by its name. -/
def name : Control → String
  | .request c => c.kind.name
  | .plain c => c.oid

def display : Control → String
  | .request c => c.display
  | .plain c => c.display

end Control
end Ldap
