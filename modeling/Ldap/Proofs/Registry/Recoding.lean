import Ldap.Proofs.Registry.Decoding

/-! Lists of controls that are read, decoded and written again. The octets may begin as any
spelling that readers take; they are written in one way only, at which decoding and writing
stop. -/
namespace Ldap.Registry

def recode (r : Registry) (s : Octets) : Except DecodeError Octets := do
  let cs ← Envelope.listOfBer s
  let ds ← (r.decodeAll cs).1
  return Envelope.listToBer (ds.map Decoded.toEnvelope)

theorem decodeAll_refines {r : Registry} (kinds : r.OnlyKinds) {cs : List Envelope}
    {ds : List Decoded} (h : (r.decodeAll cs).1 = .ok ds) :
    List.Forall₂ Envelope.Refines (ds.map Decoded.toEnvelope) cs := by
  rw [decodeAll_fst, mapM_ok_iff] at h
  rw [List.forall₂_map_left_iff]
  exact h.flip.imp fun d c decoded => decode_refines kinds decoded

theorem decodeAll_toEnvelope {r later : Registry} (kinds : r.OnlyKinds)
    (same : later.decoders = r.decoders) {cs : List Envelope} {ds : List Decoded}
    (h : (r.decodeAll cs).1 = .ok ds)
    (small : Envelope.contentLength (ds.map Decoded.toEnvelope) < 2 ^ 32) :
    (later.decodeAll (ds.map Decoded.toEnvelope)).1 = .ok ds := by
  have fixed : ∀ d ∈ ds, (r.decode d.toEnvelope).1 = .ok d := by
    intro d member
    have values : ∀ s ∈ d.toEnvelope.value, s.length < 2 ^ 32 := fun s value =>
      Nat.lt_of_le_of_lt (Envelope.value_le_contentLength (List.mem_map_of_mem member) value) small
    rw [decodeAll_fst] at h
    obtain ⟨c, _, read⟩ := exists_of_mem_mapM h member
    exact decode_toEnvelope kinds read values
  simp only [decodeAll_fst, decode_congr same, mapM_ok_iff, List.forall₂_map_left_iff,
    List.forall₂_same]
  exact fixed

theorem recode_ok {r : Registry} {s : Octets} {cs : List Envelope} {ds : List Decoded}
    (read : Envelope.listOfBer s = .ok cs) (decoded : (r.decodeAll cs).1 = .ok ds) :
    r.recode s = .ok (Envelope.listToBer (ds.map Decoded.toEnvelope)) := by
  rw [recode, read, ok_bind, decoded, ok_bind]
  rfl

/-- Decoded controls keep their OIDs and criticalities, in order. Their list is read as it was
written, is decoded to the same controls by every registry with these decoders, is written as the
same octets once more, and is never longer than what was read first. -/
theorem recoded_list_is_canonical {r : Registry} (kinds : r.OnlyKinds) {s : Octets}
    {cs : List Envelope} {ds : List Decoded} (read : Envelope.listOfBer s = .ok cs)
    (decoded : (r.decodeAll cs).1 = .ok ds) :
    List.Forall₂ (fun d c => d.toEnvelope.oid = c.oid ∧ d.toEnvelope.critical = c.critical) ds cs ∧
    Envelope.listOfBer (Envelope.listToBer (ds.map Decoded.toEnvelope)) =
      .ok (ds.map Decoded.toEnvelope) ∧
    (∀ later : Registry, later.decoders = r.decoders →
      (later.decodeAll (ds.map Decoded.toEnvelope)).1 = .ok ds ∧
      later.recode (Envelope.listToBer (ds.map Decoded.toEnvelope)) =
        .ok (Envelope.listToBer (ds.map Decoded.toEnvelope))) ∧
    (Envelope.listToBer (ds.map Decoded.toEnvelope)).length ≤ s.length := by
  have refines := decodeAll_refines kinds decoded
  obtain ⟨small, again, shorter⟩ := Envelope.listOfBer_listToBer_refines read refines
  have kept : List.Forall₂ (fun d c => d.toEnvelope.oid = c.oid ∧
      d.toEnvelope.critical = c.critical) ds cs :=
    (List.forall₂_map_left_iff.1 refines).imp fun d c h => ⟨h.oid, h.critical⟩
  have stable (later : Registry) (same : later.decoders = r.decoders) :
      (later.decodeAll (ds.map Decoded.toEnvelope)).1 = .ok ds :=
    decodeAll_toEnvelope kinds same decoded small
  exact ⟨kept, again, fun later same => ⟨stable later same, recode_ok again (stable later same)⟩,
    shorter⟩

def detours : Octets :=
  [0xA0, 0x84, 0, 0, 0, 0x63,
    0x30, 0x2B, 0x04, 0x18] ++ utf8 SyncRequest.oid ++ [0x01, 0x01, 0x01,
      0x04, 0x82, 0, 0x0A, 0x30, 0x08, 0x0A, 0x01, 0x03, 0x04, 0x00, 0x01, 0x01, 0x02,
    0x30, 0x2B, 0x04, 0x17] ++ utf8 GetAuthorizationEntry.oid ++ [0x01, 0x01, 0x00,
      0x04, 0x0D, 0x30, 0x0B, 0x81, 0x01, 0x05, 0x80, 0x01, 0x00, 0xA2, 0x03, 0x04, 0x01, 0x61,
    0x30, 0x07, 0x04, 0x03, 0x31, 0x2E, 0x32, 0x04, 0x00]

def detoursRead : List Envelope :=
  [⟨SyncRequest.oid, true, some [0x30, 0x08, 0x0A, 0x01, 0x03, 0x04, 0x00, 0x01, 0x01, 0x02]⟩,
    ⟨GetAuthorizationEntry.oid, false,
      some [0x30, 0x0B, 0x81, 0x01, 0x05, 0x80, 0x01, 0x00, 0xA2, 0x03, 0x04, 0x01, 0x61]⟩,
    ⟨"1.2", false, some []⟩]

def detoursDecoded : List Decoded :=
  [.typed (.request ⟨true, .sync ⟨.refreshAndPersist, some [], true⟩⟩),
    .typed (.request ⟨false, .getAuthorizationEntry ⟨false, true, ["a"]⟩⟩),
    .passedThrough ⟨"1.2", false, some []⟩]

theorem recoded_detours : Envelope.listOfBer detours = .ok detoursRead ∧
    (standard.decodeAll detoursRead).1 = .ok detoursDecoded ∧
    standard.recode (Envelope.listToBer (detoursDecoded.map Decoded.toEnvelope)) =
      .ok (Envelope.listToBer (detoursDecoded.map Decoded.toEnvelope)) ∧
    (Envelope.listToBer (detoursDecoded.map Decoded.toEnvelope)).length ≤ detours.length := by
  have read : Envelope.listOfBer detours = .ok detoursRead := by decide +kernel
  have decoded : (standard.decodeAll detoursRead).1 = .ok detoursDecoded := by decide +kernel
  obtain ⟨_, _, stable, shorter⟩ := recoded_list_is_canonical OnlyKinds.standard read decoded
  exact ⟨read, decoded, (stable standard rfl).2, shorter⟩

/-- Every request control comes back from its octets, untyped and typed, as long as its envelope
is shorter than four gigabytes; from there on nothing comes back. Only default options travel
without a value. -/
theorem request_round_trip {a : RequestControl}
    (fits : a.toEnvelope.toElement.content.length < 2 ^ 64) :
    (a.toEnvelope.toElement.content.length < 2 ^ 32 →
      Envelope.ofBer a.toEnvelope.toBer = .ok a.toEnvelope ∧
      RequestControl.ofEnvelope a.kind a.toEnvelope = .ok a ∧
      (standard.decode a.toEnvelope).1 = .ok (.typed (.request a))) ∧
    (2 ^ 32 ≤ a.toEnvelope.toElement.content.length →
      ∃ e, Envelope.ofBer a.toEnvelope.toBer = .error e ∧ e.kind = .malformed) ∧
    ∀ options, a.request = .getAuthorizationEntry options →
      (a.toEnvelope.value = none ↔ options = {}) := by
  have read := Envelope.ofBer_toBer_iff (g := a.toEnvelope) fits
  have named : a.toEnvelope.oid ≠ "" := a.kind.oid_ne_empty
  refine ⟨fun small => ?_, fun large => ?_, fun options asked => ?_⟩
  · have values : ∀ s ∈ a.toEnvelope.value, s.length < 2 ^ 32 := fun s value =>
      Nat.lt_of_le_of_lt (Envelope.value_length_le value) small
    exact ⟨read.2 ⟨rfl, named, small⟩, RequestControl.ofEnvelope_toEnvelope values,
      decode_request (decoder?_registerAll empty a.kind) values⟩
  · refine Envelope.ofBer_toBer_refused fits fun whole => ?_
    have := (read.1 whole).2.2
    omega
  · have carried : a.toEnvelope.value = options.value := by
      rw [RequestControl.toEnvelope, asked]; rfl
    rw [carried, GetAuthorizationEntry.value_eq_none_iff]

def withCookie (n : Nat) : RequestControl :=
  ⟨false, .sync ⟨.refreshOnly, some (List.replicate n 0), false⟩⟩

theorem withCookie_length {n : Nat} (fits : n < 2 ^ 63) :
    n ≤ (withCookie n).toEnvelope.toElement.content.length ∧
      (withCookie n).toEnvelope.toElement.content.length ≤ n + 59 := by
  let cookie := Ber.Element.ofOctets (List.replicate n 0)
  let request := Ber.Element.ofChildren Ber.Tag.sequence [.ofEnumerated 1, cookie]
  let value := Ber.Element.ofOctets request.toBer
  have cookie_content : cookie.content.length = n := List.length_replicate
  have request_content : request.content.length = 3 + cookie.toBer.length := by
    simp [request, Ber.Element.ofChildren, Ber.Element.ofEnumerated, Ber.Element.toBer,
      Ber.Length.encode]
    omega
  have value_content : value.content.length = request.toBer.length := rfl
  have named : (Ber.Element.ofText SyncRequest.oid).toBer.length = 26 := by decide +kernel
  have whole : (withCookie n).toEnvelope.toElement.content.length = 26 + value.toBer.length := by
    change ([Ber.Element.ofText SyncRequest.oid, value].flatMap Ber.Element.toBer).length = _
    simp [List.flatMap_cons, named]
  have cookie_le := Ber.Element.content_le_toBer cookie
  have request_le := Ber.Element.content_le_toBer request
  have value_le := Ber.Element.content_le_toBer value
  have cookie_add := Ber.Element.toBer_length_le_add (e := cookie) (by omega)
  have request_add := Ber.Element.toBer_length_le_add (e := request) (by omega)
  have value_add := Ber.Element.toBer_length_le_add (e := value) (by omega)
  omega

theorem cookies_round_trip :
    (standard.decode (withCookie 130).toEnvelope).1 = .ok (.typed (.request (withCookie 130))) ∧
    ∃ e, Envelope.ofBer (withCookie (2 ^ 32)).toEnvelope.toBer = .error e ∧
      e.kind = .malformed := by
  have short := withCookie_length (n := 130) (by decide)
  have long := withCookie_length (n := 2 ^ 32) (by decide)
  have found := request_round_trip (a := withCookie 130) (by omega)
  have refused := request_round_trip (a := withCookie (2 ^ 32)) (by omega)
  exact ⟨(found.1 (by omega)).2.2, refused.2.1 long.1⟩

end Ldap.Registry
