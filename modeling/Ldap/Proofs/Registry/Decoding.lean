import Ldap.Proofs.Request.Value
import Ldap.Registry.Basic

/-! What a registry makes of controls. Its results depend on the decoders only, which decoding
leaves as they are; counters are never read. -/
namespace Ldap
open Std (TreeMap)

def Decoded.toEnvelope (d : Decoded) : Envelope := d.control.toEnvelope

namespace Registry

@[simp] theorem decoder?_register (oid other : String) (d : Decoder) (r : Registry) :
    (r.register oid d).decoder? other = if oid = other then some d else r.decoder? other := by
  simp only [decoder?, Registry.register, TreeMap.getElem?_insert, Std.compare_eq_iff_eq]

@[simp] theorem isRegistered_eq_isSome (oid : String) (r : Registry) :
    r.isRegistered oid = (r.decoder? oid).isSome :=
  TreeMap.contains_eq_isSome_getElem?

/-- No decoder but those of the request kinds, under whatever OIDs. -/
def OnlyKinds (r : Registry) : Prop := ∀ oid d, r.decoder? oid = some d → ∃ kind, d = .ofKind kind

theorem OnlyKinds.congr {r later : Registry} (h : r.OnlyKinds)
    (same : later.decoders = r.decoders) :
    later.OnlyKinds := by
  intro oid d found
  rw [decoder?, same] at found
  exact h oid d found

theorem OnlyKinds.empty : empty.OnlyKinds := by
  intro oid d h
  simp [decoder?, Registry.empty] at h

theorem OnlyKinds.register {r : Registry} (h : r.OnlyKinds) (oid : String) (kind : Request.Kind) :
    (r.register oid (.ofKind kind)).OnlyKinds := by
  intro other d found
  rw [decoder?_register] at found
  split at found
  · exact ⟨kind, (Option.some.inj found).symm⟩
  · exact h other d found

theorem OnlyKinds.registerAll {r : Registry} (h : r.OnlyKinds) : r.registerAll.OnlyKinds := by
  unfold Registry.registerAll
  generalize Request.Kind.all = kinds
  induction kinds generalizing r with
  | nil => exact h
  | cons kind kinds ih => exact ih (h.register kind.oid kind)

theorem OnlyKinds.standard : standard.OnlyKinds := OnlyKinds.empty.registerAll

@[simp] theorem decoder?_registerKind (kind : Request.Kind) (oid : String) (r : Registry) :
    (r.registerKind kind).decoder? oid =
      if kind.oid = oid then some (.ofKind kind) else r.decoder? oid :=
  decoder?_register kind.oid oid (.ofKind kind) r

@[simp] theorem decoder?_registerAll (r : Registry) (kind : Request.Kind) :
    r.registerAll.decoder? kind.oid = some (.ofKind kind) := by
  simp only [Registry.registerAll, Request.Kind.all, List.foldl_cons, List.foldl_nil,
    decoder?_registerKind, Request.Kind.oid_eq_iff]
  cases kind <;> simp

theorem decode_fst (c : Envelope) (r : Registry) : (r.decode c).1 =
    match r.decoder? c.oid with
    | some d => .typed <$> d.decode c
    | none => .ok (.passedThrough c) := by
  unfold decode
  cases r.decoder? c.oid with
  | none => rfl
  | some d => cases result : d.decode c <;> simp [record, result, Functor.map, Except.map]

theorem decode_eq_record {r : Registry} {c : Envelope} {d : Decoder}
    (found : r.decoder? c.oid = some d) :
    r.decode c = r.record c.oid (d.decode c) := by
  rw [decode, found]

@[simp] theorem record_decoders (oid : String) (result : Except DecodeError Control)
    (r : Registry) :
    (r.record oid result).2.decoders = r.decoders := by
  cases result <;> rfl

@[simp] theorem decode_decoders (c : Envelope) (r : Registry) :
    (r.decode c).2.decoders = r.decoders := by
  unfold decode
  cases r.decoder? c.oid with
  | none => rfl
  | some d => exact record_decoders _ _ _

theorem decode_congr {r later : Registry} (same : later.decoders = r.decoders) (c : Envelope) :
    (later.decode c).1 = (r.decode c).1 := by
  simp only [decode_fst, decoder?, same]

section
variable {r : Registry} {c : Envelope} {d : Decoded} {e : DecodeError}

theorem decodeAll_cons_of_ok (first : (r.decode c).1 = .ok d) (cs : List Envelope) :
    r.decodeAll (c :: cs) =
      ((d :: ·) <$> ((r.decode c).2.decodeAll cs).1, ((r.decode c).2.decodeAll cs).2) := by
  rw [decodeAll]
  generalize r.decode c = step at first
  obtain ⟨result, next⟩ := step
  cases first
  dsimp only
  generalize next.decodeAll cs = rest
  obtain ⟨result, last⟩ := rest
  cases result <;> rfl

theorem decodeAll_cons_of_error (first : (r.decode c).1 = .error e) (cs : List Envelope) :
    r.decodeAll (c :: cs) = (.error e, (r.decode c).2) := by
  rw [decodeAll]
  generalize r.decode c = step at first
  obtain ⟨result, next⟩ := step
  cases first
  rfl

end

theorem decodeAll_fst (cs : List Envelope) (r : Registry) :
    (r.decodeAll cs).1 = cs.mapM fun c => (r.decode c).1 := by
  induction cs generalizing r with
  | nil => rfl
  | cons c cs ih =>
    have others : ((r.decode c).2.decodeAll cs).1 = cs.mapM fun c => (r.decode c).1 := by
      simp only [ih, decode_congr (decode_decoders c r)]
    rw [List.mapM_cons]
    cases first : (r.decode c).1 with
    | error e => simp [decodeAll_cons_of_error first]
    | ok d =>
      rw [decodeAll_cons_of_ok first, others, ok_bind]
      exact map_eq_pure_bind _ _

@[simp] theorem decodeAll_decoders (cs : List Envelope) (r : Registry) :
    (r.decodeAll cs).2.decoders = r.decoders := by
  induction cs generalizing r with
  | nil => rfl
  | cons c cs ih =>
    cases first : (r.decode c).1 with
    | error e => simp [decodeAll_cons_of_error first]
    | ok d => simp [decodeAll_cons_of_ok first, ih]

theorem decode_ok {r : Registry} (kinds : r.OnlyKinds) {c : Envelope} {d : Decoded}
    (h : (r.decode c).1 = .ok d) :
    (r.decoder? c.oid = none ∧ d = .passedThrough c) ∨
    ∃ kind a, r.decoder? c.oid = some (.ofKind kind) ∧ RequestControl.ofEnvelope kind c = .ok a ∧
      d = .typed (.request a) := by
  rw [decode_fst] at h
  cases found : r.decoder? c.oid with
  | none =>
    rw [found] at h
    cases h
    exact .inl ⟨rfl, rfl⟩
  | some decoder =>
    obtain ⟨kind, rfl⟩ := kinds _ _ found
    simp only [found] at h
    obtain ⟨control, decoded, rfl⟩ := map_ok_iff.1 h
    obtain ⟨a, read, rfl⟩ := map_ok_iff.1 decoded
    exact .inr ⟨kind, a, rfl, read, rfl⟩

theorem decode_refines {r : Registry} (kinds : r.OnlyKinds) {c : Envelope} {d : Decoded}
    (h : (r.decode c).1 = .ok d) : d.toEnvelope.Refines c := by
  rcases decode_ok kinds h with ⟨_, rfl⟩ | ⟨kind, a, _, read, rfl⟩
  · exact .refl c
  · exact (RequestControl.ofEnvelope_ok read).2

theorem decode_request {r : Registry} {a : RequestControl}
    (found : r.decoder? a.kind.oid = some (.ofKind a.kind))
    (small : ∀ s ∈ a.toEnvelope.value, s.length < 2 ^ 32) :
    (r.decode a.toEnvelope).1 = .ok (.typed (.request a)) := by
  have here : r.decoder? a.toEnvelope.oid = some (.ofKind a.kind) := found
  have read : (Decoder.ofKind a.kind).decode a.toEnvelope = .ok (.request a) := by
    simp [Decoder.decode, RequestControl.ofEnvelope_toEnvelope small]
  simp [decode_fst, here, read]

theorem decode_toEnvelope {r : Registry} (kinds : r.OnlyKinds) {c : Envelope} {d : Decoded}
    (h : (r.decode c).1 = .ok d) (small : ∀ s ∈ d.toEnvelope.value, s.length < 2 ^ 32) :
    (r.decode d.toEnvelope).1 = .ok d := by
  rcases decode_ok kinds h with ⟨_, rfl⟩ | ⟨kind, a, found, read, rfl⟩
  · exact h
  · obtain ⟨rfl, refines⟩ := RequestControl.ofEnvelope_ok read
    exact decode_request (by rwa [← refines.oid] at found) small

end Registry
end Ldap
