import Ldap.Control
import Ldap.Registry.Metrics
import Ldap.Text.Quoted

/-! Registries. The last decoder registered for an OID decodes the controls with that OID; a
control without one passes through as it is. Every operation gives its result together with the
registry after it, whose counters have moved. -/
namespace Ldap
open Std (TreeMap)

inductive Decoder where
  | ofKind (kind : Request.Kind)
  | ofFunction (decode : Envelope → Except DecodeError Control)
  /-- Any other decoder, which reads JSON objects in a way of its own. -/
  | ofFunctions (decode : Envelope → Except DecodeError Control)
      (decodeJson : Strictness → Json → Except DecodeError Control)

namespace Decoder

def decode : Decoder → Envelope → Except DecodeError Control
  | .ofKind kind, c => .request <$> RequestControl.ofEnvelope kind c
  | .ofFunction f, c => f c
  | .ofFunctions f _, c => f c

/-- A kind looks for its OID before anything else; a function of the envelope has no JSON form of
its own, so that it takes raw values only. -/
def decodeJson (strictness : Strictness) (v : Json) : Decoder → Except DecodeError Control
  | .ofKind kind =>
    match v.field? "oid" with
    | some (.string oid) =>
      if oid = kind.oid then .request <$> RequestControl.ofJson kind strictness v
      else .error (.typeMismatch "oid" .typeOid)
    | _ => .request <$> RequestControl.ofJson kind strictness v
  | .ofFunction f => Envelope.ofJson strictness v >>= f
  | .ofFunctions _ f => f strictness v

end Decoder

inductive Decoded where
  | typed (control : Control)
  | passedThrough (envelope : Envelope)
  deriving Repr, DecidableEq

namespace Decoded

def control : Decoded → Control
  | .typed c => c
  | .passedThrough c => .plain c

def isTyped : Decoded → Bool
  | .typed _ => true
  | .passedThrough _ => false

end Decoded

structure Registry where
  decoders : TreeMap String Decoder := ∅
  metrics : Metrics := {}

namespace Registry

def empty : Registry := {}

def register (oid : String) (d : Decoder) (r : Registry) : Registry :=
  ⟨r.decoders.insert oid d, r.metrics.countRegistration (r.decoders.contains oid)⟩

def registerKind (kind : Request.Kind) (r : Registry) : Registry :=
  r.register kind.oid (.ofKind kind)

def registerAll (r : Registry) : Registry :=
  Request.Kind.all.foldl (fun r kind => r.registerKind kind) r

def standard : Registry := empty.registerAll

def decoder? (oid : String) (r : Registry) : Option Decoder := r.decoders[oid]?

def isRegistered (oid : String) (r : Registry) : Bool := r.decoders.contains oid

def oids (r : Registry) : List String := r.decoders.keys

def record (oid : String) (result : Except DecodeError Control) (r : Registry) :
    Except DecodeError Decoded × Registry :=
  match result with
  | .ok c => (.ok (.typed c), { r with metrics := r.metrics.countDecoded oid })
  | .error e => (.error e, { r with metrics := r.metrics.countError oid e.kind })

def decode (c : Envelope) (r : Registry) : Except DecodeError Decoded × Registry :=
  match r.decoder? c.oid with
  | some d => r.record c.oid (d.decode c)
  | none => (.ok (.passedThrough c), { r with metrics := r.metrics.countPassedThrough })

def decodeAll (cs : List Envelope) (r : Registry) : Except DecodeError (List Decoded) × Registry :=
  match cs with
  | [] => (.ok [], r)
  | c :: cs =>
    match r.decode c with
    | (.error e, r) => (.error e, r)
    | (.ok d, r) =>
      match r.decodeAll cs with
      | (.error e, r) => (.error e, r)
      | (.ok ds, r) => (.ok (d :: ds), r)

/-- Without an OID to go by, the object is read for its fault only, and nothing is counted. -/
def decodeJson (strictness : Strictness) (v : Json) (r : Registry) :
    Except DecodeError Decoded × Registry :=
  match v.field? "oid" with
  | some (.string oid) =>
    match r.decoder? oid with
    | some d => r.record oid (d.decodeJson strictness v)
    | none =>
      match Envelope.ofJson strictness v with
      | .ok c => (.ok (.passedThrough c), { r with metrics := r.metrics.countPassedThrough })
      | .error e => (.error e, r)
  | _ => (.passedThrough <$> Envelope.ofJson strictness v, r)

def describe (r : Registry) : String :=
  "ControlRegistry \x7b oids: [" ++
    ", ".intercalate (r.oids.map fun oid => Text.quote '"' oid.toList) ++ "] \x7d"

end Registry
end Ldap
