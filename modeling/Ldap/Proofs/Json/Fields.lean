import Ldap.Proofs.Outcome
import Ldap.Proofs.Text.Base64
import Mathlib.Data.List.Perm.Basic

/-! Fields by their names. Where names are distinct, no reader sees in which order the fields
stand. -/
namespace Ldap.Json.Fields
variable {fields a b : Fields} {name : String}

theorem get?_eq_some_iff (once : fields.names.Nodup) {v : Json} :
    fields.get? name = some v ↔ (name, v) ∈ fields := by
  induction fields with
  | nil => simp [get?]
  | cons field rest ih =>
    obtain ⟨key, w⟩ := field
    obtain ⟨new, once⟩ := List.nodup_cons.1 once
    rw [List.mem_cons, Prod.mk.injEq]
    by_cases here : name = key
    · subst here
      have absent : (name, v) ∉ rest := fun there => new (List.mem_map.2 ⟨_, there, rfl⟩)
      simp only [get?, List.lookup_cons_self, Option.some.injEq, true_and, absent,
        or_false, eq_comm]
    · have other : (name == key) = false := beq_eq_false_iff_ne.2 here
      simp only [here, false_and, false_or, ← ih once]
      rw [get?, List.lookup_cons, other, get?]

theorem get?_perm (order : a.Perm b) (once : b.names.Nodup) (name : String) :
    a.get? name = b.get? name := by
  have onceHere : a.names.Nodup := (order.map _).nodup_iff.2 once
  ext v
  rw [get?_eq_some_iff onceHere, get?_eq_some_iff once, order.mem_iff]

theorem unknown_perm (order : a.Perm b) {known : List String} (none : b.unknown known = []) :
    a.unknown known = [] := by
  have same : (a.unknown known).Perm (b.unknown known) := (order.map _).filter _
  rw [none] at same
  exact same.eq_nil

@[simp] theorem refuseUnknown_ok_iff {location : Location} {known : List String} :
    fields.refuseUnknown location known = .ok () ↔ ∀ name ∈ fields.names, name ∈ known := by
  have nothing : fields.unknown known = [] ↔ ∀ name ∈ fields.names, name ∈ known := by
    simp [unknown, List.filter_eq_nil_iff]
  rw [← nothing, refuseUnknown]
  cases fields.unknown known <;> simp

theorem bool?_of_get? {b : Option Bool} (there : fields.get? name = b.map .bool) :
    fields.bool? name = .ok b := by
  rw [bool?, there]
  cases b <;> rfl

theorem string?_of_get? {text : Option String} (there : fields.get? name = text.map .string) :
    fields.string? name = .ok text := by
  rw [string?, there]
  cases text <;> rfl

theorem string?_ok_iff {text : Option String} :
    fields.string? name = .ok text ↔ fields.get? name = text.map .string := by
  constructor
  · intro read
    unfold string? at read
    split at read
    · cases read
      assumption
    · cases read
      assumption
    · cases read
  · exact string?_of_get?

@[simp] theorem stringItems_map (name : String) (texts : List String) (i : Nat) :
    stringItems name i (texts.map .string) = .ok texts := by
  induction texts generalizing i with
  | nil => rfl
  | cons s texts ih =>
    rw [List.map_cons, stringItems, ih]
    rfl

theorem strings?_of_get? {texts : Option (List String)}
    (there : fields.get? name = texts.map fun texts => .array (texts.map .string)) :
    fields.strings? name = .ok texts := by
  rw [strings?, there]
  cases texts with
  | none => rfl
  | some texts =>
    change some <$> stringItems name 0 (texts.map .string) = _
    simp

theorem octets?_of_get? {octets : Option Octets}
    (there : fields.get? name = octets.map fun s => .string (.ofList (Text.Base64.encode s))) :
    fields.octets? name = .ok octets := by
  rw [octets?, there]
  cases octets with
  | none => rfl
  | some s =>
    change some <$> ofBase64 name (.ofList (Text.Base64.encode s)) = _
    simp

end Ldap.Json.Fields
