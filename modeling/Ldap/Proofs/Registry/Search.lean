import Ldap.Proofs.Registry.Decoding

/-! Looking for the control of a kind in a list. The search decodes one control and looks at no
other; where a registry decodes the whole list, it finds what the registry has made of that
control. -/
namespace Ldap

def Decoded.request? (kind : Request.Kind) (d : Decoded) : Option RequestControl :=
  match d.control with
  | .request a => if a.kind = kind then some a else none
  | .plain _ => none

namespace RequestControl

theorem find_cons (kind : Request.Kind) (c : Envelope) (cs : List Envelope) :
    find kind (c :: cs) = if c.oid = kind.oid then some <$> ofEnvelope kind c
      else find kind cs := by
  by_cases own : c.oid = kind.oid <;> simp [find, own]

theorem find_append {kind : Request.Kind} {before : List Envelope}
    (others : ∀ b ∈ before, b.oid ≠ kind.oid) (cs : List Envelope) :
    find kind (before ++ cs) = find kind cs := by
  induction before with
  | nil => rfl
  | cons b before ih =>
    rw [List.forall_mem_cons] at others
    rw [List.cons_append, find_cons, if_neg others.1, ih others.2]

theorem find_eq_none_iff {kind : Request.Kind} {cs : List Envelope} :
    find kind cs = .ok none ↔ ∀ c ∈ cs, c.oid ≠ kind.oid := by
  induction cs with
  | nil => simp [find]
  | cons c cs ih =>
    rw [find_cons, List.forall_mem_cons, ← ih]
    by_cases own : c.oid = kind.oid
    · simp [own]
    · simp [own]

end RequestControl

namespace Registry
variable {r : Registry} {kind : Request.Kind}

section
variable (kinds : r.OnlyKinds) {c : Envelope} {d : Decoded}
include kinds

theorem request?_of_own (own : r.decoder? kind.oid = some (.ofKind kind)) (same : c.oid = kind.oid)
    (decoded : (r.decode c).1 = .ok d) :
    ∃ a, RequestControl.ofEnvelope kind c = .ok a ∧ d.request? kind = some a := by
  rcases decode_ok kinds decoded with ⟨unknown, -⟩ | ⟨other, a, found, read, rfl⟩
  · rw [same, own] at unknown
    cases unknown
  · rw [same, own] at found
    cases found
    exact ⟨a, read, if_pos (RequestControl.ofEnvelope_ok read).1⟩

theorem request?_of_other (other : c.oid ≠ kind.oid) (decoded : (r.decode c).1 = .ok d) :
    d.request? kind = none := by
  rcases decode_ok kinds decoded with ⟨-, rfl⟩ | ⟨named, a, -, read, rfl⟩
  · rfl
  · refine if_neg fun same => other ?_
    rw [(RequestControl.ofEnvelope_iff.1 read).1, ← (RequestControl.ofEnvelope_ok read).1, same]

theorem find_of_decodeAll (own : r.decoder? kind.oid = some (.ofKind kind)) {cs : List Envelope}
    {ds : List Decoded} (decoded : (r.decodeAll cs).1 = .ok ds) :
    RequestControl.find kind cs = .ok (ds.findSome? (Decoded.request? kind)) := by
  rw [decodeAll_fst, mapM_ok_iff] at decoded
  induction decoded with
  | nil => rfl
  | @cons c d cs ds first _ ih =>
    rw [RequestControl.find_cons, List.findSome?_cons]
    by_cases same : c.oid = kind.oid
    · obtain ⟨a, read, found⟩ := request?_of_own kinds own same first
      simp [same, read, found]
    · rw [if_neg same, request?_of_other kinds same first, ih]

end

/-- The search for a kind and the standard registry agree: in a list that is decoded whole, the
control that is found is the first of the kind among the decoded ones. In any list nothing is
found if and only if no control has the kind's OID; otherwise the result, be it a fault, is that
of decoding the first control that has it, whatever the others are. -/
theorem search_agrees_with_decoding (kind : Request.Kind) (cs : List Envelope) :
    (∀ ds, (standard.decodeAll cs).1 = .ok ds →
      RequestControl.find kind cs = .ok (ds.findSome? (Decoded.request? kind))) ∧
    (RequestControl.find kind cs = .ok none ↔ ∀ c ∈ cs, c.oid ≠ kind.oid) ∧
    ∀ before c after, cs = before ++ c :: after → (∀ b ∈ before, b.oid ≠ kind.oid) →
      c.oid = kind.oid →
      RequestControl.find kind cs = some <$> RequestControl.ofEnvelope kind c := by
  refine ⟨fun ds => find_of_decodeAll OnlyKinds.standard (decoder?_registerAll empty kind),
    RequestControl.find_eq_none_iff, ?_⟩
  rintro before c after rfl others own
  rw [RequestControl.find_append others, RequestControl.find_cons, if_pos own]

def mixture : List Envelope :=
  [⟨"1.2", true, none⟩, ⟨SyncRequest.oid, true, some [0x30, 0x03, 0x0A, 0x01, 0x03]⟩,
    ⟨SyncRequest.oid, false, none⟩, ⟨Request.Kind.replicationRepair.oid, true, some []⟩]

theorem mixture_searched :
    (∃ e, (standard.decodeAll mixture).1 = .error e) ∧
    (standard.decodeAll (mixture.take 2)).1 = .ok [.passedThrough ⟨"1.2", true, none⟩,
      .typed (.request ⟨true, .sync ⟨.refreshAndPersist, none, false⟩⟩)] ∧
    RequestControl.find .sync (mixture.take 2) =
      .ok (some ⟨true, .sync ⟨.refreshAndPersist, none, false⟩⟩) ∧
    RequestControl.find .sync mixture = .ok (some ⟨true, .sync ⟨.refreshAndPersist, none, false⟩⟩) ∧
    RequestControl.find .sync (mixture.drop 2) = .error (.missingValue SyncRequest.oid) ∧
    RequestControl.find .getAuthorizationEntry mixture = .ok none := by
  have decoded : (standard.decodeAll (mixture.take 2)).1 = .ok [.passedThrough ⟨"1.2", true, none⟩,
      .typed (.request ⟨true, .sync ⟨.refreshAndPersist, none, false⟩⟩)] := by decide +kernel
  refine ⟨⟨.missingValue SyncRequest.oid, by decide +kernel⟩, decoded, ?_, ?_, ?_, ?_⟩
  · rw [(search_agrees_with_decoding .sync (mixture.take 2)).1 _ decoded]
    decide
  · rw [(search_agrees_with_decoding .sync mixture).2.2 _ _ _ (List.take_append_drop 1 mixture).symm
      (by decide) rfl]
    decide +kernel
  · rw [(search_agrees_with_decoding .sync (mixture.drop 2)).2.2 [] _ _ rfl (by simp) rfl]
    decide +kernel
  · exact (search_agrees_with_decoding .getAuthorizationEntry mixture).2.1.2 (by decide)

end Registry
end Ldap
