import Ldap.Proofs.Registry.Counters
import Ldap.Proofs.Registry.Strictness

/-! What decoding looks at in an object. The name of the control, the fields that no reader asks
for and the order of fields play no part, but that strict reading names the first field it does
not know. -/
namespace Ldap
open Json

def Json.Fields.AgreeOn (names : List String) (a b : Fields) : Prop :=
  ∀ name ∈ names, a.get? name = b.get? name

inductive SameOutcome {α β : Type} (related : α → β → Prop) :
    Except DecodeError α → Except DecodeError β → Prop
  | ok {a : α} {b : β} : related a b → SameOutcome related (.ok a) (.ok b)
  | error (e : DecodeError) : SameOutcome related (.error e) (.error e)

namespace SameOutcome
variable {α β γ δ : Type} {related : α → β → Prop} {x : Except DecodeError α}
  {y : Except DecodeError β}

theorem bind_eq {f : α → Except DecodeError γ} {g : β → Except DecodeError γ}
    (first : SameOutcome related x y) (next : ∀ a b, related a b → f a = g b) :
    x >>= f = y >>= g := by
  cases first with
  | ok here => exact next _ _ here
  | error e => rfl

theorem bind {results : γ → δ → Prop} {f : α → Except DecodeError γ} {g : β → Except DecodeError δ}
    (first : SameOutcome related x y)
    (next : ∀ a b, related a b → SameOutcome results (f a) (g b)) :
    SameOutcome results (x >>= f) (y >>= g) := by
  cases first with
  | ok here => exact next _ _ here
  | error e => exact .error e

theorem refl {related : α → α → Prop} (same : ∀ a, related a a) (x : Except DecodeError α) :
    SameOutcome related x x := by
  cases x with
  | ok a => exact .ok (same a)
  | error e => exact .error e

theorem andThen (x : Except DecodeError α) {results : γ → δ → Prop} {f : α → Except DecodeError γ}
    {g : α → Except DecodeError δ} (next : ∀ a, SameOutcome results (f a) (g a)) :
    SameOutcome results (x >>= f) (x >>= g) := by
  refine (refl (fun _ => rfl) x).bind fun a _ equal => ?_
  cases equal
  exact next a

end SameOutcome

namespace Request

def fieldNames : List String := GetAuthorizationEntry.fieldNames ++ SyncRequest.fieldNames

/-- Values that lenient reading does not tell apart. -/
inductive Alike : ValueForm → ValueForm → Prop
  | same (value : ValueForm) : Alike value value
  | structured {a b : Fields} : a.AgreeOn fieldNames b → Alike (.structured a) (.structured b)

variable {a b : Fields}

theorem ofFields_congr (agree : a.AgreeOn fieldNames b) (kind : Kind) :
    ofFields .lenient a kind = ofFields .lenient b kind := by
  cases kind with
  | getAuthorizationEntry =>
    have read : GetAuthorizationEntry.ofFields .lenient a =
        GetAuthorizationEntry.ofFields .lenient b := by
      simp only [GetAuthorizationEntry.ofFields, Fields.bool?, Fields.strings?,
        agree "include-authentication-entry" (by decide),
        agree "include-authorization-entry" (by decide), agree "attributes" (by decide)]
      rfl
    rw [ofFields, read, ofFields]
  | suppressReferentialIntegrity => rfl
  | replicationRepair => rfl
  | sync =>
    have read : SyncRequest.ofFields .lenient a = SyncRequest.ofFields .lenient b := by
      simp only [SyncRequest.ofFields, Fields.string?, Fields.octets?, Fields.bool?,
        agree "mode" (by decide), agree "cookie" (by decide), agree "reload-hint" (by decide)]
      rfl
    rw [ofFields, read, ofFields]

theorem ofForm_congr {value other : ValueForm} (alike : Alike value other) (kind : Kind) :
    ofForm kind .lenient value = ofForm kind .lenient other := by
  cases alike with
  | same => rfl
  | structured agree => exact ofFields_congr agree kind

end Request

namespace ControlObject
variable {a b : Fields}

structure SameEnvelope (a b : Fields) : Prop where
  oid : a.get? "oid" = b.get? "oid"
  criticality : a.get? "criticality" = b.get? "criticality"
  octets : a.get? "value-base64" = b.get? "value-base64"
  name : ∃ name : Option String, a.get? "control-name" = name.map .string
  otherName : ∃ name : Option String, b.get? "control-name" = name.map .string

def SameValue (a b : Fields) : Prop :=
  a.get? "value-json" = b.get? "value-json" ∨
  ∃ i j : Fields, a.get? "value-json" = some (.object i) ∧ b.get? "value-json" = some (.object j) ∧
    i.AgreeOn Request.fieldNames j

structure Alike (c d : ControlObject) : Prop where
  oid : c.oid = d.oid
  critical : c.critical = d.critical
  value : Request.Alike c.value d.value

theorem readValue_alike (octets : a.get? "value-base64" = b.get? "value-base64")
    (values : SameValue a b) (oid : String) :
    SameOutcome Request.Alike (readValue oid a) (readValue oid b) := by
  rcases values with equal | ⟨i, j, here, there, agree⟩
  · have read : readValue oid a = readValue oid b := by simp only [readValue, octets, equal]
    rw [read]
    exact .refl .same _
  · cases given : b.get? "value-base64" with
    | none =>
      rw [given] at octets
      simp only [readValue, octets, given, here, there]
      exact .ok (.structured agree)
    | some text =>
      rw [given] at octets
      simp only [readValue, octets, given, here, there]
      exact .error _

theorem check_alike {value other : ValueForm} (alike : Request.Alike value other) (oid : String)
    (policy : ValuePolicy) : value.check oid policy = other.check oid policy := by
  cases alike <;> rfl

theorem ofJson_alike (same : SameEnvelope a b) (values : SameValue a b) (policy : ValuePolicy) :
    SameOutcome Alike (ofJson policy .lenient (.object a))
      (ofJson policy .lenient (.object b)) := by
  have oids : readOid a = readOid b := by simp only [readOid, same.oid]
  have criticalities : readCriticality a = readCriticality b := by
    simp only [readCriticality, same.criticality]
  obtain ⟨name, here⟩ := same.name
  obtain ⟨otherName, there⟩ := same.otherName
  rw [ofJson, ofJson, ofFields, ofFields, oids, criticalities, Fields.string?_of_get? here,
    Fields.string?_of_get? there]
  refine .andThen _ fun oid => ?_
  rw [ok_bind, ok_bind]
  refine .andThen _ fun critical =>
    (readValue_alike same.octets values oid).bind fun value other alike => ?_
  rw [check_alike alike]
  exact .andThen _ fun _ => .ok ⟨rfl, rfl, alike⟩

end ControlObject

section
variable {a b : Fields} (same : ControlObject.SameEnvelope a b)
  (values : ControlObject.SameValue a b)
include same values

theorem RequestControl.ofJson_congr (kind : Request.Kind) :
    ofJson kind .lenient (.object a) = ofJson kind .lenient (.object b) := by
  refine (ControlObject.ofJson_alike same values kind.policy).bind_eq fun c d alike => ?_
  have expected : c.expectOid kind.oid = d.expectOid kind.oid := by
    rw [ControlObject.expectOid, ControlObject.expectOid, alike.oid]
  rw [expected, alike.critical, Request.ofForm_congr alike.value]

theorem Envelope.ofJson_congr : ofJson .lenient (.object a) = ofJson .lenient (.object b) := by
  refine (ControlObject.ofJson_alike same values .optional).bind_eq fun c d alike => ?_
  obtain ⟨oid, name, critical, value⟩ := c
  obtain ⟨other, otherName, otherCritical, otherValue⟩ := d
  obtain ⟨rfl, rfl, values⟩ := alike
  cases values <;> rfl

theorem Decoder.decodeJson_congr {d : Decoder} (derived : ∀ f g, d ≠ .ofFunctions f g) :
    d.decodeJson .lenient (.object a) = d.decodeJson .lenient (.object b) := by
  have named : (Json.object a).field? "oid" = (Json.object b).field? "oid" := same.oid
  cases d with
  | ofKind kind => simp only [decodeJson, named, RequestControl.ofJson_congr same values kind]
  | ofFunction f => rw [decodeJson, Envelope.ofJson_congr same values, decodeJson]
  | ofFunctions f g => exact absurd rfl (derived f g)

theorem Registry.decodeJson_lenient_congr {r : Registry} (derived : r.NoOwnForms) :
    (r.decodeJson .lenient (.object a)).1 = (r.decodeJson .lenient (.object b)).1 := by
  have named : (Json.object a).field? "oid" = (Json.object b).field? "oid" := same.oid
  rw [decodeJson_fst, decodeJson_fst, named, Envelope.ofJson_congr same values]
  split
  · rename_i oid there
    cases found : r.decoder? oid with
    | none => rfl
    | some d =>
      have derived : ∀ f g, d ≠ .ofFunctions f g := by
        rintro f g rfl
        exact derived oid f g found
      dsimp only
      rw [Decoder.decodeJson_congr same values derived]
  · rfl

end

theorem OnlyRefuses.eq_lenient {α : Type} {known : List String} {v : Json}
    {read : Strictness → Except DecodeError α} (h : OnlyRefuses known v read) {p : Strictness}
    (top : p.topLevel = false) :
    read p = (do let a ← read .lenient; refuse (p.fault? known v); return a) := by
  cases lenient : read .lenient with
  | ok a => exact h.eq_of_ok lenient p
  | error e =>
    have le : Strictness.lenient ≤ p := ⟨nofun, nofun⟩
    exact h.error_of_le le top.symm lenient

namespace Json.Fields

theorem mem_names_iff {name : String} {fields : Fields} :
    name ∈ fields.names ↔ fields.get? name ≠ none := by
  simp [names, get?]

theorem stray?_eq_none_congr {a b : Fields} (same : ∀ name, a.get? name = b.get? name)
    (known : List String) :
    a.stray? known = none ↔ b.stray? known = none := by
  simp [mem_names_iff, same]

end Json.Fields

namespace Strictness
variable {p : Strictness} {known : List String} {v : Json}

theorem fault?_eq_valueFault? (top : p.topLevel = false) :
    p.fault? known v = p.valueFault? known v := by
  have none : p.objectFault? v = none := by
    rw [objectFault?_congr (q := .lenient) top]
    cases v <;> rfl
  rw [fault?, none, Option.none_or]

theorem fieldsFault?_reordered {i j : Fields} (same : ∀ name, i.get? name = j.get? name) :
    p.fieldsFault? known i = p.fieldsFault? known j ∨
    ∃ x y, p.fieldsFault? known i = some (.unrecognizedField x .structuredValue) ∧
      p.fieldsFault? known j = some (.unrecognizedField y .structuredValue) := by
  have clean := Fields.stray?_eq_none_congr same known
  rw [fieldsFault?, fieldsFault?]
  cases p.value with
  | false => exact .inl rfl
  | true =>
    cases here : i.stray? known with
    | none =>
      rw [clean.1 here]
      exact .inl rfl
    | some x =>
      cases there : j.stray? known with
      | none =>
        rw [clean.2 there] at here
        cases here
      | some y => exact .inr ⟨x, y, rfl, rfl⟩

theorem fault?_of_structured (top : p.topLevel = false) {inner : Fields}
    (there : v.field? "value-json" = some (.object inner)) :
    p.fault? known v = p.fieldsFault? known inner := by
  rw [fault?_eq_valueFault? top, valueFault?, there]

end Strictness

namespace Registry

theorem attempt_snd_congr {r : Registry} {i j : Input}
    (same : (Attempt.mk r i).counter? = (Attempt.mk r j).counter?) :
    (r.attempt i).2 = (r.attempt j).2 := by
  change (Attempt.mk r i).after = (Attempt.mk r j).after
  obtain ⟨moved, counted, here⟩ | ⟨still, here, -⟩ := (Attempt.mk r i).moves_or_leaves
  · obtain ⟨other, also, there⟩ | ⟨nothing, -, -⟩ := (Attempt.mk r j).moves_or_leaves
    · rw [counted, also, Option.some.injEq] at same
      rw [here, there, same]
    · rw [counted, nothing] at same
      cases same
  · obtain ⟨other, also, -⟩ | ⟨-, there, -⟩ := (Attempt.mk r j).moves_or_leaves
    · rw [still, also] at same
      cases same
    · rw [here, there]

section
variable {r : Registry} {p q : Strictness} {a b : Json} (named : a.field? "oid" = b.field? "oid")
include named

theorem attempt_oid?_congr :
    (Attempt.mk r (.object p a)).oid? = (Attempt.mk r (.object q b)).oid? := by
  simp only [Attempt.oid?, Input.oid?, named]

theorem decodeJson_congr (result : (r.decodeJson p a).1 = (r.decodeJson q b).1) :
    r.decodeJson p a = r.decodeJson q b := by
  have results : (Attempt.mk r (.object p a)).result = (Attempt.mk r (.object q b)).result := result
  have counters : (Attempt.mk r (.object p a)).counter? =
      (Attempt.mk r (.object q b)).counter? := by
    rw [Attempt.counter?, results, attempt_oid?_congr named, Attempt.counter?]
  exact Prod.ext result (attempt_snd_congr counters)

theorem decodeJson_snd_congr {e f : DecodeError} (kinds : e.kind = f.kind)
    (here : (r.decodeJson p a).1 = .error e) (there : (r.decodeJson q b).1 = .error f) :
    (r.decodeJson p a).2 = (r.decodeJson q b).2 := by
  have here : (Attempt.mk r (.object p a)).result = .error e := here
  have there : (Attempt.mk r (.object q b)).result = .error f := there
  have counters : (Attempt.mk r (.object p a)).counter? =
      (Attempt.mk r (.object q b)).counter? := by
    rw [Attempt.counter?, here, attempt_oid?_congr named, Attempt.counter?, there]
    dsimp only
    rw [kinds]
  exact attempt_snd_congr counters

end

def labelled : Fields :=
  [("oid", .string GetAuthorizationEntry.oid), ("control-name", .string "Who"),
    ("criticality", .bool true),
    ("value-json", .object [("size", .null), ("attributes", .array [.string "cn"]),
      ("limit", .null)])]

def shuffled : Fields :=
  [("value-json", .object [("limit", .null), ("attributes", .array [.string "cn"]),
    ("size", .null)]), ("note", .bool false), ("criticality", .bool true),
    ("oid", .string GetAuthorizationEntry.oid)]

end Registry
end Ldap
