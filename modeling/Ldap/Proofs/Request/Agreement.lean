import Ldap.Proofs.Request.Acceptance
import Ldap.Proofs.Request.Form

/-! Requests of which only some fields are given, on the wire and in an object. Both readers know
the same defaults, whatever is left out and in whatever order the rest stands. -/
namespace Ldap
open Ber Json

namespace GetAuthorizationEntry.Given
variable {p : Given} {s : Octets} {a z es : List Element}

/-- The octets of a sequence that has exactly the members that are given, in any order and any
spelling. -/
inductive CarriedBy (s : Octets) (p : Given) : Prop
  | intro {a z l es : List Element} : Element.Optionally authnTag Element.Truth p.authn a →
      Element.Optionally authzTag Element.Truth p.authz z →
        Element.Optionally attributesTag Texts p.attributes l →
      es.Perm (a ++ z ++ l) → Element.Constructs Tag.sequence s es → CarriedBy s p

theorem CarriedBy.ofBer_eq (h : p.CarriedBy s) : ofBer s = .ok p.complete := by
  obtain ⟨first, second, third, order, spelled⟩ := h
  exact ofBer_iff.2 ⟨_, spelled, (completes_of_optional first second third {}).perm order.symm⟩

def writtenList (p : Given) : List Element :=
  p.attributes.toList.map fun names => .ofChildren attributesTag (names.map .ofText)

theorem optionally_writtenList (small : ∀ e ∈ p.writtenList, e.toBer.length < 2 ^ 32) :
    Element.Optionally attributesTag Texts p.attributes p.writtenList := by
  obtain ⟨authn, authz, attributes⟩ := p
  cases attributes with
  | none => exact .absent
  | some names =>
    have content := Element.content_le_toBer (.ofChildren attributesTag (names.map .ofText))
    exact .present (texts_ofChildren (Nat.lt_of_le_of_lt content (small _ List.mem_cons_self)))

theorem carriedBy_toBer (first : Element.Optionally authnTag Element.Truth p.authn a)
    (second : Element.Optionally authzTag Element.Truth p.authz z)
    (order : es.Perm (a ++ z ++ p.writtenList))
    (small : (Element.ofChildren Tag.sequence es).toBer.length < 2 ^ 32) :
    p.CarriedBy (Element.ofChildren Tag.sequence es).toBer := by
  have content := Nat.lt_of_le_of_lt (Element.content_le_toBer _) small
  have third : Element.Optionally attributesTag Texts p.attributes p.writtenList := by
    refine optionally_writtenList fun e member => ?_
    have inside : e ∈ es := order.mem_iff.2 (List.mem_append_right _ member)
    exact Nat.lt_of_le_of_lt (Element.toBer_le_flatMap inside) content
  have members := (completes_of_optional first second third {}).perm order.symm
  exact ⟨first, second, third, order,
    Element.constructs_toBer Tag.sequence_single members.single content⟩

end GetAuthorizationEntry.Given

namespace SyncRequest.Given
variable {p : Given} {s : Octets} {hint : List Element}

def members (p : Given) (hint : List Element) : List Element :=
  .ofEnumerated p.mode.code :: (p.cookie.toList.map .ofOctets ++ hint)

inductive CarriedBy (s : Octets) (p : Given) : Prop
  | intro {hint : List Element} : Element.Optionally Tag.boolean Element.Truth p.hint hint →
      Element.Constructs Tag.sequence s (p.members hint) → CarriedBy s p

theorem ofMembers_eq (given : Element.Optionally Tag.boolean Element.Truth p.hint hint) :
    ofMembers (p.members hint) = .ok p.complete :=
  ofMembers_iff.2 ⟨hint, given.flag, rfl⟩

theorem CarriedBy.ofBer_eq (h : p.CarriedBy s) : ofBer s = .ok p.complete := by
  obtain ⟨given, spelled⟩ := h
  exact ofBer_iff.2 ⟨_, spelled, ofMembers_eq given⟩

theorem carriedBy_toBer (given : Element.Optionally Tag.boolean Element.Truth p.hint hint)
    (small : (Element.ofChildren Tag.sequence (p.members hint)).toBer.length < 2 ^ 32) :
    p.CarriedBy (Element.ofChildren Tag.sequence (p.members hint)).toBer := by
  have content := Nat.lt_of_le_of_lt (Element.content_le_toBer _) small
  have single := ofMembers_single (ofMembers_eq given)
  exact ⟨given, Element.constructs_toBer Tag.sequence_single single content⟩

end SyncRequest.Given

namespace RequestControl

/-- A value on the wire and a form of a value in an object that are both read as a request, with
any criticality; the object under any strictness, with or without a name, and with its fields in
any order. -/
structure BothRead (value : Option Octets) (form : ValueForm) (request : Request) : Prop where
  wire (critical : Bool) :
    ofEnvelope request.kind ⟨request.kind.oid, critical, value⟩ = .ok ⟨critical, request⟩
  object (critical : Bool) (name : Option String) (strictness : Strictness) (fields : Fields) :
    fields.Perm (ControlObject.toFields ⟨request.kind.oid, name, critical, form⟩) →
      ofJson request.kind strictness (.object fields) = .ok ⟨critical, request⟩

theorem bothRead {value : Option Octets} {form : ValueForm} {request : Request}
    (wire : Request.ofValue request.kind value = .ok request)
    (allowed : form.check request.kind.oid request.kind.policy = .ok ())
    (object : ∀ strictness, Request.ofForm request.kind strictness form = .ok request) :
    BothRead value form request where
  wire _ := ofEnvelope_iff.2 ⟨rfl, rfl, wire⟩
  object _ _ strictness _ order := ofJson_of_perm allowed (object strictness) order

theorem bothRead_getAuthorizationEntry {p : GetAuthorizationEntry.Given} {s : Octets}
    {fields : Fields} (carried : p.CarriedBy s) (order : fields.Perm p.toFields) :
    BothRead (some s) (.structured fields) (.getAuthorizationEntry p.complete) := by
  refine bothRead ?_ rfl fun strictness => ?_
  · change Request.getAuthorizationEntry <$> GetAuthorizationEntry.ofBer s = _
    simp [carried.ofBer_eq]
  · change Request.getAuthorizationEntry <$> GetAuthorizationEntry.ofFields strictness fields = _
    simp [GetAuthorizationEntry.Given.ofFields_eq order]

theorem bothRead_sync {p : SyncRequest.Given} {s : Octets} {fields : Fields}
    (carried : p.CarriedBy s) (order : fields.Perm p.toFields) :
    BothRead (some s) (.structured fields) (.sync p.complete) := by
  refine bothRead ?_ rfl fun strictness => ?_
  · change Request.sync <$> SyncRequest.ofBer s = _
    simp [carried.ofBer_eq]
  · change Request.sync <$> SyncRequest.ofFields strictness fields = _
    simp [SyncRequest.Given.ofFields_eq order]

/-- A sequence of exactly the members that are given and an object of exactly the fields that are
given are the same request, with the defaults for what is missing. No value, an empty sequence and
an empty object are the default request for authorization entries. -/
theorem given_fields_read_alike :
    (∀ (p : GetAuthorizationEntry.Given) s fields, p.CarriedBy s → fields.Perm p.toFields →
      BothRead (some s) (.structured fields) (.getAuthorizationEntry p.complete)) ∧
    (∀ (p : GetAuthorizationEntry.Given) a z es,
      Element.Optionally GetAuthorizationEntry.authnTag Element.Truth p.authn a →
      Element.Optionally GetAuthorizationEntry.authzTag Element.Truth p.authz z →
      es.Perm (a ++ z ++ p.writtenList) →
      (Element.ofChildren Tag.sequence es).toBer.length < 2 ^ 32 →
      p.CarriedBy (Element.ofChildren Tag.sequence es).toBer) ∧
    BothRead none .absent (.getAuthorizationEntry {}) ∧
    (∀ s, Element.Constructs Tag.sequence s [] →
      BothRead (some s) (.structured []) (.getAuthorizationEntry {})) ∧
    (∀ (p : SyncRequest.Given) s fields, p.CarriedBy s → fields.Perm p.toFields →
      BothRead (some s) (.structured fields) (.sync p.complete)) ∧
    ∀ (p : SyncRequest.Given) hint, Element.Optionally Tag.boolean Element.Truth p.hint hint →
      (Element.ofChildren Tag.sequence (p.members hint)).toBer.length < 2 ^ 32 →
      p.CarriedBy (Element.ofChildren Tag.sequence (p.members hint)).toBer := by
  refine ⟨fun p s fields => bothRead_getAuthorizationEntry,
    fun p a z es => GetAuthorizationEntry.Given.carriedBy_toBer, bothRead rfl rfl fun _ => rfl,
    fun s empty => ?_, fun p s fields => bothRead_sync, fun p hint =>
      SyncRequest.Given.carriedBy_toBer⟩
  have nothing : GetAuthorizationEntry.Given.CarriedBy s ⟨none, none, none⟩ :=
    ⟨.absent, .absent, .absent, .refl _, empty⟩
  exact bothRead_getAuthorizationEntry nothing (.refl _)

theorem explicit_defaults_read_alike :
    BothRead (some [0x30, 0x05, 0xA2, 0x00, 0x80, 0x01, 0x05])
      (.structured [("attributes", .array []), ("include-authentication-entry", .bool true)])
      (.getAuthorizationEntry {}) ∧
    BothRead (some [0x30, 0x81, 0x00]) (.structured []) (.getAuthorizationEntry {}) ∧
    BothRead (some [0x30, 0x08, 0x0A, 0x01, 0x01, 0x04, 0x00, 0x01, 0x01, 0x00])
      (.structured [("reload-hint", .bool false), ("cookie", .string ""),
        ("mode", .string "refresh-only")])
      (.sync ⟨.refreshOnly, some [], false⟩) := by
  obtain ⟨entries, written, -, empty, syncs, syncWritten⟩ := given_fields_read_alike
  have list := written ⟨some true, none, some []⟩ [⟨0x80, [0x05]⟩] [] [⟨0xA2, []⟩, ⟨0x80, [0x05]⟩]
    (.present (.intro 0x05)) .absent (by decide) (by decide +kernel)
  have cookie :=
    syncWritten ⟨.refreshOnly, some [], some false⟩ [⟨0x01, [0x00]⟩] (.present (.intro 0x00))
    (by decide +kernel)
  have listOctets : (Element.ofChildren Tag.sequence [⟨0xA2, []⟩, ⟨0x80, [0x05]⟩]).toBer =
    [0x30, 0x05, 0xA2, 0x00, 0x80, 0x01, 0x05] := by decide +kernel
  have cookieOctets : (Element.ofChildren Tag.sequence
      (SyncRequest.Given.members ⟨.refreshOnly, some [], some false⟩ [⟨0x01, [0x00]⟩])).toBer =
    [0x30, 0x08, 0x0A, 0x01, 0x01, 0x04, 0x00, 0x01, 0x01, 0x00] := by decide +kernel
  rw [listOctets] at list
  rw [cookieOctets] at cookie
  have backwards :=
    List.reverse_perm (SyncRequest.Given.toFields ⟨.refreshOnly, some [], some false⟩)
  exact ⟨entries _ _ _ list (.swap ..), empty _ (Element.read_members_iff.1 (by decide +kernel)),
    syncs _ _ _ cookie backwards⟩

end RequestControl
end Ldap
