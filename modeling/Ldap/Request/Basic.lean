import Ldap.Request.GetAuthorizationEntry
import Ldap.Request.SyncRequest

/-! The requests that controls make, and their kinds: OID, name, and what a value of the kind may
be. -/
namespace Ldap

inductive Request where
  | getAuthorizationEntry (options : GetAuthorizationEntry)
  | suppressReferentialIntegrity
  | replicationRepair
  | sync (options : SyncRequest)
  deriving Repr, DecidableEq

namespace Request

inductive Kind where
  | getAuthorizationEntry
  | suppressReferentialIntegrity
  | replicationRepair
  | sync
  deriving Repr, DecidableEq

def kind : Request → Kind
  | .getAuthorizationEntry _ => .getAuthorizationEntry
  | .suppressReferentialIntegrity => .suppressReferentialIntegrity
  | .replicationRepair => .replicationRepair
  | .sync _ => .sync

namespace Kind

def all : List Kind :=
  [.getAuthorizationEntry, .suppressReferentialIntegrity, .replicationRepair, .sync]

def oid : Kind → String
  | .getAuthorizationEntry => GetAuthorizationEntry.oid
  | .suppressReferentialIntegrity => "1.3.6.1.4.1.30221.2.5.30"
  | .replicationRepair => "1.3.6.1.4.1.30221.1.5.2"
  | .sync => SyncRequest.oid

def name : Kind → String
  | .getAuthorizationEntry => "Get Authorization Entry Request Control"
  | .suppressReferentialIntegrity => "Suppress Referential Integrity Updates Request Control"
  | .replicationRepair => "Replication Repair Request Control"
  | .sync => "Content Synchronization Request Control"

def policy : Kind → ValuePolicy
  | .getAuthorizationEntry => .optional
  | .suppressReferentialIntegrity => .forbidden
  | .replicationRepair => .forbidden
  | .sync => .required

end Kind

def value : Request → Option Octets
  | .getAuthorizationEntry r => r.value
  | .sync r => some r.value
  | _ => none

def form : Request → ValueForm
  | .getAuthorizationEntry r => r.form
  | .sync r => .structured r.toFields
  | _ => .absent

def ofValue : Kind → Option Octets → Except DecodeError Request
  | .getAuthorizationEntry, none => .ok (.getAuthorizationEntry {})
  | .getAuthorizationEntry, some s => .getAuthorizationEntry <$> GetAuthorizationEntry.ofBer s
  | .suppressReferentialIntegrity, none => .ok .suppressReferentialIntegrity
  | .replicationRepair, none => .ok .replicationRepair
  | .sync, none => .error (.missingValue Kind.sync.oid)
  | .sync, some s => .sync <$> SyncRequest.ofBer s
  | kind, some _ => .error (.unexpectedValue kind.oid)

def ofFields (strictness : Strictness) (fields : Json.Fields) : Kind → Except DecodeError Request
  | .getAuthorizationEntry =>
    .getAuthorizationEntry <$> GetAuthorizationEntry.ofFields strictness fields
  | .sync => .sync <$> SyncRequest.ofFields strictness fields
  | kind => .error (.unexpectedValue kind.oid)

def ofForm (kind : Kind) (strictness : Strictness) : ValueForm → Except DecodeError Request
  | .absent => ofValue kind none
  | .raw s => ofValue kind (some s)
  | .structured fields => ofFields strictness fields kind

end Request
end Ldap
