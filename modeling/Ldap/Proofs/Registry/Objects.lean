import Ldap.Proofs.Registry.Decoding
import Ldap.Proofs.Request.Form

/-! What a registry makes of JSON objects. Whatever was decoded, from octets or from an object, is
found again in its own object. -/
namespace Ldap
open Json

theorem Decoder.decodeJson_ofKind {p : Strictness} {v : Json} {oid : String}
    (there : v.field? "oid" = some (.string oid)) (kind : Request.Kind) :
    (ofKind kind).decodeJson p v =
      if oid = kind.oid then .request <$> RequestControl.ofJson kind p v
      else .error (.typeMismatch "oid" .typeOid) := by
  rw [decodeJson, there]

namespace Registry

theorem decodeJson_fst (p : Strictness) (v : Json) (r : Registry) : (r.decodeJson p v).1 =
    match v.field? "oid" with
    | some (.string oid) =>
      match r.decoder? oid with
      | some d => .typed <$> d.decodeJson p v
      | none => .passedThrough <$> Envelope.ofJson p v
    | _ => .passedThrough <$> Envelope.ofJson p v := by
  unfold decodeJson
  cases v.field? "oid" with
  | none => rfl
  | some field =>
    cases field with
    | string oid =>
      cases found : r.decoder? oid with
      | none => cases Envelope.ofJson p v <;> simp [found, Functor.map, Except.map]
      | some d =>
        cases result : d.decodeJson p v <;> simp [found, record, result, Functor.map, Except.map]
    | _ => rfl

theorem decodeJson_eq_record {r : Registry} {d : Decoder} {p : Strictness} {v : Json} {oid : String}
    (there : v.field? "oid" = some (.string oid)) (found : r.decoder? oid = some d) :
    r.decodeJson p v = r.record oid (d.decodeJson p v) := by
  simp only [decodeJson, there, found]

@[simp] theorem decodeJson_decoders (p : Strictness) (v : Json) (r : Registry) :
    (r.decodeJson p v).2.decoders = r.decoders := by
  unfold decodeJson
  cases v.field? "oid" with
  | none => rfl
  | some field =>
    cases field with
    | string oid =>
      cases found : r.decoder? oid with
      | none => cases Envelope.ofJson p v <;> simp [found]
      | some d => simp [found]
    | _ => rfl

/-- The controls that a registry decodes to: requests of the kinds under their own OIDs, and
envelopes with an OID that has no decoder. -/
inductive Yields (r : Registry) : Decoded → Prop
  | request {a : RequestControl} :
    r.decoder? a.kind.oid = some (.ofKind a.kind) → Yields r (.typed (.request a))
  | passedThrough {c : Envelope} : r.decoder? c.oid = none → c.oid ≠ "" →
    Yields r (.passedThrough c)

theorem Yields.congr {r later : Registry} {d : Decoded} (h : r.Yields d)
    (same : later.decoders = r.decoders) :
    later.Yields d := by
  cases h with
  | request found => exact .request (by rwa [decoder?, same])
  | passedThrough unknown named => exact .passedThrough (by rwa [decoder?, same]) named

theorem yields_of_decode {r : Registry} (kinds : r.OnlyKinds) {c : Envelope} {d : Decoded}
    (named : c.oid ≠ "") (h : (r.decode c).1 = .ok d) : r.Yields d := by
  rcases decode_ok kinds h with ⟨unknown, rfl⟩ | ⟨kind, a, found, read, rfl⟩
  · exact .passedThrough unknown named
  · obtain ⟨rfl, refines⟩ := RequestControl.ofEnvelope_ok read
    exact .request (by rwa [← refines.oid] at found)

theorem yields_of_ofJson {r : Registry} {p : Strictness} {v : Json} {d : Decoded}
    (unknown : ∀ oid, v.field? "oid" = some (.string oid) → r.decoder? oid = none)
    (h : .passedThrough <$> Envelope.ofJson p v = .ok d) : r.Yields d := by
  obtain ⟨c, read, rfl⟩ := map_ok_iff.1 h
  obtain ⟨named, found⟩ := Envelope.ofJson_ok read
  exact .passedThrough (unknown c.oid found) named

theorem yields_of_decodeJson {r : Registry} (kinds : r.OnlyKinds) {p : Strictness} {v : Json}
    {d : Decoded} (h : (r.decodeJson p v).1 = .ok d) : r.Yields d := by
  rw [decodeJson_fst] at h
  split at h
  · rename_i oid there
    cases found : r.decoder? oid with
    | none =>
      rw [found] at h
      exact yields_of_ofJson (by simp [there, found]) h
    | some decoder =>
      obtain ⟨kind, rfl⟩ := kinds _ _ found
      simp only [found, Decoder.decodeJson_ofKind there] at h
      obtain ⟨control, decoded, rfl⟩ := map_ok_iff.1 h
      split at decoded
      · rename_i same
        obtain ⟨a, read, rfl⟩ := map_ok_iff.1 decoded
        have kind := RequestControl.ofJson_ok read
        exact .request (by rwa [kind, ← same])
      · cases decoded
  · rename_i unnamed
    exact yields_of_ofJson (fun oid there => absurd there (unnamed oid)) h

theorem Yields.decodeJson_toJson {r : Registry} {d : Decoded} (h : r.Yields d) (q : Strictness) :
    (r.decodeJson q d.control.toJson).1 = .ok d := by
  rw [decodeJson_fst]
  cases h with
  | @request a found =>
    have named : (Control.request a).toJson.field? "oid" = some (.string a.kind.oid) := rfl
    have read : (Decoder.ofKind a.kind).decodeJson q (Control.request a).toJson =
        .ok (.request a) := by
      rw [Decoder.decodeJson_ofKind named, if_pos rfl, Control.toJson, Control.toObject,
        a.ofJson_toJson, map_ok]
    simp [Decoded.control, named, found, read]
  | @passedThrough c unknown nonempty =>
    have named : (Control.plain c).toJson.field? "oid" = some (.string c.oid) := rfl
    have read : Envelope.ofJson q (Control.plain c).toJson = .ok c :=
      Envelope.ofJson_toJson nonempty q
    simp [Decoded.control, named, unknown, read]

end Registry
end Ldap
