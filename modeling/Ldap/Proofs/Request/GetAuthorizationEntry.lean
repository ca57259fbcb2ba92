import Ldap.Proofs.Ber.Members
import Ldap.Request.GetAuthorizationEntry

/-! The value of the get authorization entry request on the wire. Members are taken on in any
order; those that are written, in the order of their tags and without defaults, never take more
octets. -/
namespace Ldap.GetAuthorizationEntry
open Ber

def Texts (content : Octets) (names : List String) : Prop :=
  Element.SpellsAll content (names.map .ofText)

theorem readAttributes_iff {e : Element} {names : List String} :
    readAttributes e = .ok names ↔ Texts e.content names := by
  have each (a : Element) (name : String) :
      (a.expectTag Tag.octetString >>= Element.text) = .ok name ↔ a = .ofText name := by
    simp only [bind_ok_iff, Element.expectTag_ok]
    constructor
    · rintro ⟨_, ⟨tag, rfl⟩, read⟩
      exact Element.eq_ofText tag read
    · rintro rfl
      exact ⟨_, ⟨rfl, rfl⟩, Element.text_ofText name⟩
  have all (es : List Element) : List.Forall₂ (fun a name => a = .ofText name) es names ↔
      es = names.map .ofText := by
    rw [← List.forall₂_eq_eq_eq, List.forall₂_map_right_iff]
  simp only [readAttributes, Element.children, bind_ok_iff, mapM_ok_iff, each, all,
    Element.sequence_iff]
  constructor
  · rintro ⟨_, inner, rfl⟩
    exact inner
  · intro inner
    exact ⟨_, inner, rfl⟩

theorem tags_distinct :
    authnTag ≠ authzTag ∧ authnTag ≠ attributesTag ∧ authzTag ≠ attributesTag := by decide

theorem addMember_iff {r next : GetAuthorizationEntry} {e : Element} : r.addMember e = .ok next ↔
    (e.tag = authnTag ∧ ∃ b, Element.Truth e.content b ∧ { r with authn := b } = next) ∨
    (e.tag = authzTag ∧ ∃ b, Element.Truth e.content b ∧ { r with authz := b } = next) ∨
    (e.tag = attributesTag ∧ ∃ names, Texts e.content names ∧
      { r with attributes := names } = next) := by
  obtain ⟨flags, first, second⟩ := tags_distinct
  unfold addMember
  split
  · rename_i tag
    simp only [bind_ok_iff, blame_ok_iff, Element.bool_iff, pure, Except.pure, Except.ok.injEq, tag,
      flags, first, true_and, false_and, or_false]
  · split
    · rename_i tag
      simp only [bind_ok_iff, blame_ok_iff, Element.bool_iff, pure, Except.pure, Except.ok.injEq,
        tag, flags.symm, second, true_and, false_and, or_false, false_or]
    · split
      · rename_i tag
        simp only [bind_ok_iff, blame_ok_iff, readAttributes_iff, pure, Except.pure,
          Except.ok.injEq, tag, first.symm, second.symm, true_and, false_and, false_or]
      · rename_i authn authz attributes
        simp only [authn, authz, attributes, false_and, or_false, reduceCtorEq]

def size (r : GetAuthorizationEntry) : Nat := (r.members.flatMap Element.toBer).length

theorem size_eq (r : GetAuthorizationEntry) : size r =
    (if r.authn then 0 else 3) + (if r.authz then 0 else 3) +
      if r.attributes = [] then 0
      else (Element.ofChildren attributesTag (r.attributes.map .ofText)).toBer.length := by
  simp only [size, members, List.flatMap_append, List.length_append]
  congr 2
  · split <;> simp [Element.ofBool, Element.length_toBer_octet]
  · split <;> simp [Element.ofBool, Element.length_toBer_octet]
  · split <;> simp

theorem addMember_size_le {r next : GetAuthorizationEntry} {e : Element}
    (h : r.addMember e = .ok next) :
    size next ≤ size r + e.toBer.length := by
  have written (b : Bool) : (if b = true then 0 else 3) ≤ 3 := by split <;> omega
  rcases addMember_iff.1 h with ⟨_, b, truth, rfl⟩ | ⟨_, b, truth, rfl⟩ | ⟨_, names, texts, rfl⟩
  · have := written b
    simp only [size_eq, truth.length_toBer]
    omega
  · have := written b
    simp only [size_eq, truth.length_toBer]
    omega
  · have whole : (Element.ofChildren attributesTag (names.map .ofText)).toBer.length ≤
        e.toBer.length :=
      Element.toBer_length_mono (Element.sequence_length_le (Element.sequence_iff.2 texts))
    have written : (if names = [] then 0
        else (Element.ofChildren attributesTag (names.map .ofText)).toBer.length) ≤
          e.toBer.length := by
      split <;> omega
    simp only [size_eq]
    omega

theorem addMembers_size_le {seen : List Tag} {r next : GetAuthorizationEntry} {es : List Element}
    (h : addMembers seen r es = .ok next) :
    size next ≤ size r + (es.flatMap Element.toBer).length := by
  induction es generalizing seen r with
  | nil =>
    cases h
    simp
  | cons e es ih =>
    rw [addMembers] at h
    split at h
    · cases h
    · obtain ⟨between, first, others⟩ := bind_ok_iff.1 h
      have step := addMember_size_le first
      have run := ih others
      rw [List.flatMap_cons, List.length_append]
      omega

/-- What members make of a request, in any order: each of the three fields is given once or keeps
its value. -/
structure Completes (r : GetAuthorizationEntry) (es : List Element) (next : GetAuthorizationEntry) :
    Prop where
  distinct : (es.map Element.tag).Nodup
  known : ∀ e ∈ es, e.tag = authnTag ∨ e.tag = authzTag ∨ e.tag = attributesTag
  authn : Element.Carries authnTag Element.Truth r.authn es next.authn
  authz : Element.Carries authzTag Element.Truth r.authz es next.authz
  attributes : Element.Carries attributesTag Texts r.attributes es next.attributes

@[simp] theorem completes_nil {r next : GetAuthorizationEntry} :
    Completes r [] next ↔ r = next := by
  constructor
  · rintro ⟨-, -, authn, authz, attributes⟩
    rw [Element.Carries.absent_iff (by simp)] at authn authz attributes
    obtain ⟨_, _, _⟩ := next
    cases authn
    cases authz
    cases attributes
    rfl
  · rintro rfl
    exact ⟨List.nodup_nil, by simp, .absent (by simp), .absent (by simp), .absent (by simp)⟩

theorem completes_singleton {r next : GetAuthorizationEntry} {e : Element} : Completes r [e] next ↔
    (e.tag = authnTag ∨ e.tag = authzTag ∨ e.tag = attributesTag) ∧
    (if e.tag = authnTag then Element.Truth e.content next.authn else next.authn = r.authn) ∧
    (if e.tag = authzTag then Element.Truth e.content next.authz else next.authz = r.authz) ∧
    if e.tag = attributesTag then Texts e.content next.attributes
    else next.attributes = r.attributes := by
  simp only [← Element.Carries.singleton_iff]
  constructor
  · rintro ⟨-, known, authn, authz, attributes⟩
    exact ⟨known e List.mem_cons_self, authn, authz, attributes⟩
  · rintro ⟨known, authn, authz, attributes⟩
    exact ⟨by simp, by simpa using known, authn, authz, attributes⟩

theorem addMember_iff_completes {r next : GetAuthorizationEntry} {e : Element} :
    r.addMember e = .ok next ↔ Completes r [e] next := by
  obtain ⟨flags, first, second⟩ := tags_distinct
  obtain ⟨authn, authz, attributes⟩ := r
  obtain ⟨nextAuthn, nextAuthz, nextAttributes⟩ := next
  rw [addMember_iff, completes_singleton]
  by_cases isAuthn : e.tag = authnTag
  · simp only [isAuthn, flags, first, if_true, if_false, true_and, false_and, or_false, mk.injEq]
    constructor
    · rintro ⟨_, truth, rfl, rfl, rfl⟩
      exact ⟨truth, rfl, rfl⟩
    · rintro ⟨truth, rfl, rfl⟩
      exact ⟨_, truth, rfl, rfl, rfl⟩
  · by_cases isAuthz : e.tag = authzTag
    · simp only [isAuthz, flags.symm, second, if_true, if_false, true_and, false_and,
        or_true, or_false, false_or, mk.injEq]
      constructor
      · rintro ⟨_, truth, rfl, rfl, rfl⟩
        exact ⟨rfl, truth, rfl⟩
      · rintro ⟨rfl, truth, rfl⟩
        exact ⟨_, truth, rfl, rfl, rfl⟩
    · simp only [isAuthn, isAuthz, if_false, false_and, false_or, mk.injEq]
      constructor
      · rintro ⟨tag, _, texts, rfl, rfl, rfl⟩
        exact ⟨tag, rfl, rfl, by rwa [if_pos tag]⟩
      · rintro ⟨tag, rfl, rfl, texts⟩
        rw [if_pos tag] at texts
        exact ⟨tag, _, texts, rfl, rfl, rfl⟩

theorem completes_cons {r next : GetAuthorizationEntry} {e : Element} {es : List Element} :
    Completes r (e :: es) next ↔
      (∀ f ∈ es, f.tag ≠ e.tag) ∧ ∃ between, r.addMember e = .ok between ∧
      Completes between es next := by
  have distinct_iff : ((e :: es).map Element.tag).Nodup ↔
      (∀ f ∈ es, f.tag ≠ e.tag) ∧ (es.map Element.tag).Nodup := by
    simp [List.nodup_cons]
  constructor
  · rintro ⟨distinct, known, authn, authz, attributes⟩
    obtain ⟨fresh, distinct⟩ := distinct_iff.1 distinct
    rw [List.forall_mem_cons] at known
    obtain ⟨_, authnHere, authn⟩ := (Element.Carries.cons_iff fresh).1 authn
    obtain ⟨_, authzHere, authz⟩ := (Element.Carries.cons_iff fresh).1 authz
    obtain ⟨_, attributesHere, attributes⟩ := (Element.Carries.cons_iff fresh).1 attributes
    refine ⟨fresh, ⟨_, _, _⟩, addMember_iff_completes.2 ?_, distinct, known.2, authn,
      authz, attributes⟩
    exact ⟨by simp, by simpa using known.1, authnHere, authzHere, attributesHere⟩
  · rintro ⟨fresh, between, step, distinct, known, authn, authz, attributes⟩
    obtain ⟨-, knownHere, authnHere, authzHere, attributesHere⟩ := addMember_iff_completes.1 step
    exact ⟨distinct_iff.2 ⟨fresh, distinct⟩,
      List.forall_mem_cons.2 ⟨knownHere e List.mem_cons_self, known⟩,
      (Element.Carries.cons_iff fresh).2 ⟨_, authnHere, authn⟩,
      (Element.Carries.cons_iff fresh).2 ⟨_, authzHere, authz⟩,
      (Element.Carries.cons_iff fresh).2 ⟨_, attributesHere, attributes⟩⟩

theorem addMembers_iff {seen : List Tag} {r next : GetAuthorizationEntry} {es : List Element} :
    addMembers seen r es = .ok next ↔ (∀ e ∈ es, e.tag ∉ seen) ∧ Completes r es next := by
  -- Each step adds its tag to those seen, which is all that keeps the later members from
  -- repeating it.
  induction es generalizing seen r with
  | nil => simp [addMembers]
  | cons e es ih =>
    rw [addMembers, completes_cons, List.forall_mem_cons]
    split
    · rename_i repeated
      simp [repeated]
    · rename_i fresh
      simp only [bind_ok_iff, ih, List.mem_cons, not_or, fresh, not_false_eq_true, true_and]
      constructor
      · rintro ⟨between, step, others, rest⟩
        exact ⟨fun f member => (others f member).2, fun f member => (others f member).1,
          between, step, rest⟩
      · rintro ⟨unseen, others, between, step, rest⟩
        exact ⟨between, step, fun f member => ⟨others f member, unseen f member⟩, rest⟩

theorem Completes.perm {r next : GetAuthorizationEntry} {es fs : List Element}
    (h : Completes r es next) (order : es.Perm fs) : Completes r fs next where
  distinct := (order.map _).nodup_iff.1 h.distinct
  known e member := h.known e (order.mem_iff.2 member)
  authn := h.authn.perm order
  authz := h.authz.perm order
  attributes := h.attributes.perm order

theorem Completes.single {r next : GetAuthorizationEntry} {es : List Element}
    (h : Completes r es next) :
    ∀ e ∈ es, Tag.isMultiOctet e.tag = false := by
  intro e member
  rcases h.known e member with tag | tag | tag <;> rw [tag] <;> rfl

theorem completes_of_optional {authn authz : Option Bool} {attributes : Option (List String)}
    {a z l : List Element} (first : Element.Optionally authnTag Element.Truth authn a)
    (second : Element.Optionally authzTag Element.Truth authz z)
    (third : Element.Optionally attributesTag Texts attributes l) (r : GetAuthorizationEntry) :
    Completes r (a ++ z ++ l) ⟨authn.getD r.authn, authz.getD r.authz,
      attributes.getD r.attributes⟩ := by
  obtain ⟨flags, low, high⟩ := tags_distinct
  have tagA := first.tag_eq
  have tagZ := second.tag_eq
  have tagL := third.tag_eq
  constructor
  · rw [List.map_append, List.map_append, List.nodup_append, List.nodup_append]
    refine ⟨⟨first.distinct, second.distinct, ?_⟩, third.distinct, ?_⟩
    · simp only [List.forall_mem_map]
      intro e inA f inZ
      rwa [tagA e inA, tagZ f inZ]
    · simp only [List.mem_append, List.mem_map]
      rintro _ (⟨e, inA, rfl⟩ | ⟨e, inZ, rfl⟩) _ ⟨f, inL, rfl⟩
      · rwa [tagA e inA, tagL f inL]
      · rwa [tagZ e inZ, tagL f inL]
  · simp only [List.forall_mem_append]
    exact ⟨⟨fun e member => .inl (tagA e member), fun e member => .inr (.inl (tagZ e member))⟩,
      fun e member => .inr (.inr (tagL e member))⟩
  · have others : ∀ e ∈ [] ++ (z ++ l), e.tag ≠ authnTag := by
      simp only [List.nil_append, List.forall_mem_append]
      exact ⟨fun e member => tagZ e member ▸ flags.symm, fun e member => tagL e member ▸ low.symm⟩
    simpa using first.carries others r.authn
  · have others : ∀ e ∈ a ++ l, e.tag ≠ authzTag := by
      rw [List.forall_mem_append]
      exact ⟨fun e member => tagA e member ▸ flags, fun e member => tagL e member ▸ high.symm⟩
    exact second.carries others r.authz
  · have others : ∀ e ∈ a ++ z ++ [], e.tag ≠ attributesTag := by
      rw [List.append_nil, List.forall_mem_append]
      exact ⟨fun e member => tagA e member ▸ low, fun e member => tagZ e member ▸ high⟩
    simpa using third.carries others r.attributes

theorem texts_ofChildren {names : List String}
    (small : (Element.ofChildren attributesTag (names.map .ofText)).content.length < 2 ^ 32) :
    Texts (Element.ofChildren attributesTag (names.map .ofText)).content names :=
  Element.sequence_iff.1 (Element.sequence_flatMap_toBer
    (by simp only [List.forall_mem_map]; exact fun _ _ => Tag.octetString_single) small)

theorem completes_members {r : GetAuthorizationEntry} (small : size r < 2 ^ 32) :
    Completes {} r.members r := by
  obtain ⟨authn, authz, attributes⟩ := r
  have flag (t : Tag) (b : Bool) : Element.Optionally t Element.Truth (if b then none else some b)
      (if b then [] else [.ofBool t false]) := by
    cases b with
    | false => exact .present (Element.truth_ofBool t false)
    | true => exact .absent
  have list : Element.Optionally attributesTag Texts
      (if attributes = [] then none else some attributes)
      (if attributes = [] then [] else [.ofChildren attributesTag (attributes.map .ofText)]) := by
    split
    · exact .absent
    · rename_i nonempty
      have content := Element.content_le_toBer (.ofChildren attributesTag (attributes.map .ofText))
      simp only [size_eq, nonempty, if_false] at small
      exact .present (texts_ofChildren (by omega))
  have read := completes_of_optional (flag authnTag authn) (flag authzTag authz) list {}
  have flags (b : Bool) : (if b then none else some b).getD true = b := by cases b <;> rfl
  have names : (if attributes = [] then none else some attributes).getD [] = attributes := by
    split <;> simp_all
  rwa [flags, flags, names] at read

theorem ofBer_iff {s : Octets} {r : GetAuthorizationEntry} :
    ofBer s = .ok r ↔ ∃ es, Element.Constructs Tag.sequence s es ∧ Completes {} es r := by
  simp only [ofBer, bind_ok_iff, blame_ok_iff, ← Element.read_members_iff, addMembers_iff,
    List.not_mem_nil, not_false_eq_true, implies_true, true_and]

theorem value_eq_none_iff {r : GetAuthorizationEntry} : r.value = none ↔ r = {} := by
  unfold value
  split <;> simp_all

theorem ofBer_value {r : GetAuthorizationEntry} {s : Octets} (written : r.value = some s)
    (small : s.length < 2 ^ 32) : ofBer s = .ok r := by
  unfold value at written
  split at written
  · cases written
  · cases written
    have content := Element.content_le_toBer (.ofChildren Tag.sequence r.members)
    have small := Nat.lt_of_le_of_lt content small
    have members := completes_members small
    exact ofBer_iff.2 ⟨_, Element.constructs_toBer Tag.sequence_single members.single small,
      members⟩

theorem value_length_le {s t : Octets} {r : GetAuthorizationEntry} (h : ofBer s = .ok r)
    (written : r.value = some t) : t.length ≤ s.length := by
  unfold value at written
  split at written
  · cases written
  · cases written
    obtain ⟨es, read, inner⟩ := bind_ok_iff.1 h
    have nothing : size {} = 0 := rfl
    have run := addMembers_size_le inner
    rw [nothing, Nat.zero_add] at run
    exact Element.read_members_length_le (blame_ok_iff.1 read) run

end Ldap.GetAuthorizationEntry
