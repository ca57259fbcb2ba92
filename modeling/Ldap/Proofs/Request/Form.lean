import Ldap.Proofs.ControlObject
import Ldap.Proofs.Request.Value

/-! Requests as fields of a JSON object, written and read back under every strictness. Fields may
be missing, and those that are given may stand in any order. -/
namespace Ldap
open Json

namespace GetAuthorizationEntry

/-- What is given of a request; the rest has its default. -/
structure Given where
  authn : Option Bool
  authz : Option Bool
  attributes : Option (List String)

namespace Given

def complete (p : Given) : GetAuthorizationEntry :=
  ⟨p.authn.getD true, p.authz.getD true, p.attributes.getD []⟩

def toFields (p : Given) : Fields :=
  (p.authn.toList.map fun b => ("include-authentication-entry", .bool b)) ++
  (p.authz.toList.map fun b => ("include-authorization-entry", .bool b)) ++
  p.attributes.toList.map fun names => ("attributes", .array (names.map .string))

theorem names_toFields_nodup (p : Given) : p.toFields.names.Nodup := by
  obtain ⟨authn, authz, attributes⟩ := p
  cases authn <;> cases authz <;> cases attributes <;> simp [toFields, Fields.names]

@[simp] theorem unknown_toFields (p : Given) : p.toFields.unknown fieldNames = [] := by
  obtain ⟨authn, authz, attributes⟩ := p
  cases authn <;> cases authz <;> cases attributes <;> simp [toFields, Fields.unknown,
    Fields.names, fieldNames]

theorem ofFields_eq {p : Given} {fields : Fields} (order : fields.Perm p.toFields)
    (q : Strictness) :
    ofFields q fields = .ok p.complete := by
  have same := Fields.get?_perm order p.names_toFields_nodup
  have known := Fields.unknown_perm order p.unknown_toFields
  obtain ⟨authn, authz, attributes⟩ := p
  have first : fields.bool? "include-authentication-entry" = .ok authn := by
    refine Fields.bool?_of_get? ((same _).trans ?_)
    cases authn <;> cases authz <;> cases attributes <;> rfl
  have second : fields.bool? "include-authorization-entry" = .ok authz := by
    refine Fields.bool?_of_get? ((same _).trans ?_)
    cases authn <;> cases authz <;> cases attributes <;> rfl
  have third : fields.strings? "attributes" = .ok attributes := by
    refine Fields.strings?_of_get? ((same _).trans ?_)
    cases authn <;> cases authz <;> cases attributes <;> rfl
  rw [ofFields, first, ok_bind, second, ok_bind, third, ok_bind, Strictness.checkValue_known known,
    ok_bind]
  rfl

end Given

def written (r : GetAuthorizationEntry) : Given :=
  ⟨some r.authn, some r.authz, if r.attributes = [] then none else some r.attributes⟩

@[simp] theorem toFields_written (r : GetAuthorizationEntry) : r.written.toFields = r.toFields := by
  unfold written toFields
  split <;> rfl

@[simp] theorem complete_written (r : GetAuthorizationEntry) : r.written.complete = r := by
  obtain ⟨authn, authz, attributes⟩ := r
  unfold written
  split <;> simp_all [Given.complete]

@[simp] theorem ofFields_toFields (r : GetAuthorizationEntry) (q : Strictness) :
    ofFields q r.toFields = .ok r := by
  simp [← toFields_written, Given.ofFields_eq (.refl _)]

theorem toFields_plain (r : GetAuthorizationEntry) : Plain 2 (.object r.toFields) := by
  have names (s : List String) : Plain 1 (.array (s.map .string)) :=
    .array (by simp only [List.forall_mem_map]; exact fun s _ => .string 0 s)
  unfold toFields
  split
  · refine .object (by simp [Fields.names]) ?_
    simp only [List.append_nil, List.forall_mem_cons, List.not_mem_nil, false_implies,
      implies_true, and_true]
    exact ⟨.bool _ _, .bool _ _⟩
  · refine .object (by simp [Fields.names]) ?_
    simp only [List.cons_append, List.nil_append, List.forall_mem_cons, List.not_mem_nil,
      false_implies, implies_true, and_true]
    exact ⟨.bool _ _, .bool _ _, names _⟩

end GetAuthorizationEntry

namespace SyncRequest

@[simp] theorem ofName_name (mode : SyncMode) : SyncMode.ofName mode.name = .ok mode := by
  cases mode <;> rfl

structure Given where
  mode : SyncMode
  cookie : Option Octets
  hint : Option Bool

namespace Given

def complete (p : Given) : SyncRequest := ⟨p.mode, p.cookie, p.hint.getD false⟩

def toFields (p : Given) : Fields :=
  ("mode", .string p.mode.name) ::
    ((p.cookie.toList.map fun s => ("cookie", .string (.ofList (Text.Base64.encode s)))) ++
      p.hint.toList.map fun b => ("reload-hint", .bool b))

theorem names_toFields_nodup (p : Given) : p.toFields.names.Nodup := by
  obtain ⟨mode, cookie, hint⟩ := p
  cases cookie <;> cases hint <;> simp [toFields, Fields.names]

@[simp] theorem unknown_toFields (p : Given) : p.toFields.unknown fieldNames = [] := by
  obtain ⟨mode, cookie, hint⟩ := p
  cases cookie <;> cases hint <;> simp [toFields, Fields.unknown, Fields.names, fieldNames]

theorem ofFields_eq {p : Given} {fields : Fields} (order : fields.Perm p.toFields)
    (q : Strictness) :
    ofFields q fields = .ok p.complete := by
  have same := Fields.get?_perm order p.names_toFields_nodup
  have known := Fields.unknown_perm order p.unknown_toFields
  obtain ⟨mode, cookie, hint⟩ := p
  have first : fields.string? "mode" = .ok (some mode.name) :=
    Fields.string?_of_get? ((same _).trans rfl)
  have second : fields.octets? "cookie" = .ok cookie := by
    refine Fields.octets?_of_get? ((same _).trans ?_)
    cases cookie <;> cases hint <;> rfl
  have third : fields.bool? "reload-hint" = .ok hint := by
    refine Fields.bool?_of_get? ((same _).trans ?_)
    cases cookie <;> cases hint <;> rfl
  rw [ofFields, first, ok_bind]
  dsimp only
  rw [ofName_name, ok_bind, second, ok_bind, third, ok_bind, Strictness.checkValue_known known,
    ok_bind]
  rfl

end Given

@[simp] theorem ofFields_toFields (r : SyncRequest) (q : Strictness) :
    ofFields q r.toFields = .ok r :=
  Given.ofFields_eq (p := ⟨r.mode, r.cookie, some r.reloadHint⟩) (.refl _) q

theorem toFields_plain (r : SyncRequest) : Plain 2 (.object r.toFields) := by
  obtain ⟨mode, cookie, hint⟩ := r
  refine .object ?_ ?_
  · cases cookie <;> simp [toFields, Fields.names]
  · simp only [toFields, List.forall_mem_cons, List.forall_mem_append, List.forall_mem_map,
      List.not_mem_nil, false_implies, implies_true, and_true]
    exact ⟨.string _ _, fun _ _ => .string _ _, .bool _ _⟩

end SyncRequest

namespace Request

@[simp] theorem ofForm_form (q : Request) (p : Strictness) : ofForm q.kind p q.form = .ok q := by
  cases q with
  | getAuthorizationEntry r =>
    change ofForm .getAuthorizationEntry p r.form = _
    unfold GetAuthorizationEntry.form
    split
    · rename_i default
      rw [default]
      rfl
    · simp [ofForm, ofFields]
  | suppressReferentialIntegrity => rfl
  | replicationRepair => rfl
  | sync r =>
    change ofForm .sync p (.structured r.toFields) = _
    simp [ofForm, ofFields]

theorem ofForm_kind {kind : Kind} {p : Strictness} {form : ValueForm} {q : Request}
    (h : ofForm kind p form = .ok q) : q.kind = kind := by
  cases form with
  | absent => exact (ofValue_ok h).1
  | raw s => exact (ofValue_ok h).1
  | structured fields =>
    cases kind with
    | getAuthorizationEntry =>
      obtain ⟨r, _, rfl⟩ := map_ok_iff.1 h
      rfl
    | suppressReferentialIntegrity => cases h
    | replicationRepair => cases h
    | sync =>
      obtain ⟨r, _, rfl⟩ := map_ok_iff.1 h
      rfl

@[simp] theorem check_form (q : Request) : q.form.check q.kind.oid q.kind.policy = .ok () := by
  cases q with
  | getAuthorizationEntry r =>
    change r.form.check _ .optional = _
    cases r.form <;> rfl
  | suppressReferentialIntegrity => rfl
  | replicationRepair => rfl
  | sync r => rfl

theorem form_plain {q : Request} {fields : Fields} (h : q.form = .structured fields) :
    Plain 2 (.object fields) := by
  cases q with
  | getAuthorizationEntry r =>
    change r.form = _ at h
    unfold GetAuthorizationEntry.form at h
    split at h
    · cases h
    · cases h
      exact r.toFields_plain
  | suppressReferentialIntegrity => cases h
  | replicationRepair => cases h
  | sync r =>
    cases h
    exact r.toFields_plain

end Request

theorem RequestControl.ofJson_ok {kind : Request.Kind} {q : Strictness} {v : Json}
    {a : RequestControl} (h : ofJson kind q v = .ok a) : a.kind = kind := by
  obtain ⟨object, _, others⟩ := bind_ok_iff.1 h
  obtain ⟨_, _, others⟩ := bind_ok_iff.1 others
  obtain ⟨request, read, last⟩ := bind_ok_iff.1 others
  cases last
  exact Request.ofForm_kind read

theorem RequestControl.ofJson_of_perm {kind : Request.Kind} {form : ValueForm} {request : Request}
    {q : Strictness} (allowed : form.check kind.oid kind.policy = .ok ())
    (read : Request.ofForm kind q form = .ok request) {name : Option String} {critical : Bool}
    {fields : Fields}
    (order : fields.Perm (ControlObject.toFields ⟨kind.oid, name, critical, form⟩)) :
    ofJson kind q (.object fields) = .ok ⟨critical, request⟩ := by
  have held := ControlObject.heldBy_of_perm kind.oid_ne_empty order
  have known := Fields.unknown_perm order (ControlObject.unknown_toFields _)
  have expected : (ControlObject.mk kind.oid name critical form).expectOid kind.oid = .ok () :=
    if_pos rfl
  rw [ofJson, ControlObject.ofJson_of_known held known, allowed]
  change (do (ControlObject.mk kind.oid name critical form).expectOid kind.oid; _) = _
  rw [expected, ok_bind, read, ok_bind]
  rfl

theorem RequestControl.ofJson_toJson (a : RequestControl) (q : Strictness) :
    ofJson a.kind q a.toObject.toJson = .ok a :=
  ofJson_of_perm a.request.check_form (a.request.ofForm_form q) (.refl _)

namespace Envelope

theorem ofJson_toJson {c : Envelope} (named : c.oid ≠ "") (q : Strictness) :
    ofJson q c.toJson = .ok c := by
  obtain ⟨oid, critical, value⟩ := c
  have allowed : (ValueForm.ofValue value).check oid .optional = .ok () := by cases value <;> rfl
  rw [ofJson, toJson, ControlObject.ofJson_toJson named allowed, ok_bind]
  cases value <;> rfl

theorem ofJson_ok {q : Strictness} {v : Json} {c : Envelope} (h : ofJson q v = .ok c) :
    c.oid ≠ "" ∧ v.field? "oid" = some (.string c.oid) := by
  obtain ⟨object, read, last⟩ := bind_ok_iff.1 h
  have named := ControlObject.ofJson_ok read
  unfold ofObject at last
  split at last <;> cases last <;> exact named

end Envelope

theorem Control.toJson_plain (c : Control) : Plain 3 c.toJson := by
  refine ControlObject.toJson_plain fun fields structured => ?_
  cases c with
  | request a => exact Request.form_plain structured
  | plain c =>
    obtain ⟨oid, critical, value⟩ := c
    cases value <;> cases structured

end Ldap
