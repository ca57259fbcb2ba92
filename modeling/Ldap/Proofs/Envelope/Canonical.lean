import Ldap.Proofs.Envelope.RoundTrip

/-! Lists of envelopes that were read and written again. Values may have become shorter on the
way; the written list is then never longer, and it is read as it was written. -/
namespace Ldap.Envelope
open Ber

structure Refines (g c : Envelope) : Prop where
  oid : g.oid = c.oid
  critical : g.critical = c.critical
  value : ∀ s ∈ g.value, ∃ t ∈ c.value, s.length ≤ t.length

theorem Refines.refl (c : Envelope) : Refines c c where
  oid := rfl
  critical := rfl
  value s member := ⟨s, member, Nat.le_refl _⟩

theorem Refines.toBer_length_le {g c : Envelope} (h : Refines g c) :
    g.toBer.length ≤ c.toBer.length := by
  obtain ⟨oid, critical, value⟩ := c
  obtain ⟨oid, critical, shorter⟩ := g
  obtain ⟨rfl, rfl, bound⟩ := h
  have values : ((shorter.toList.map Element.ofOctets).flatMap Element.toBer).length ≤
      ((value.toList.map Element.ofOctets).flatMap Element.toBer).length := by
    cases shorter with
    | none => simp
    | some s =>
      obtain ⟨t, there, le⟩ := bound s rfl
      cases there
      have : (Element.ofOctets s).toBer.length ≤ (Element.ofOctets t).toBer.length :=
        Element.toBer_length_mono le
      simpa using this
  refine Element.toBer_length_mono ?_
  simp only [toElement, Element.ofChildren, members, List.flatMap_cons, List.flatMap_append,
    List.length_append]
  omega

theorem contentLength_le {gs cs : List Envelope} (h : List.Forall₂ Refines gs cs) :
    contentLength gs ≤ contentLength cs := by
  induction h with
  | nil => exact Nat.le_refl _
  | cons first _ ih =>
    have := first.toBer_length_le
    simp only [contentLength]
    omega

theorem value_length_le {c : Envelope} {s : Octets} (h : s ∈ c.value) :
    s.length ≤ c.toElement.content.length := by
  have member : Element.ofOctets s ∈ c.members := by
    simp only [members, List.mem_cons, List.mem_append, List.mem_map, Option.mem_toList]
    exact .inr (.inr ⟨s, h, rfl⟩)
  have whole := Element.content_le_toBer (.ofOctets s)
  exact Nat.le_trans whole (Element.toBer_le_flatMap member)

theorem value_le_contentLength {c : Envelope} {cs : List Envelope} (member : c ∈ cs) {s : Octets}
    (h : s ∈ c.value) : s.length ≤ contentLength cs :=
  calc s.length
    _ ≤ c.toElement.content.length := value_length_le h
    _ ≤ c.toBer.length := Element.content_le_toBer _
    _ ≤ contentLength cs := toBer_le_contentLength member

theorem contentLength_le_elements {es : List Element} {cs : List Envelope}
    (h : es.mapM ofElement = .ok cs) : contentLength cs ≤ (es.flatMap Element.toBer).length := by
  have each := mapM_ok_iff.1 h
  clear h
  induction each with
  | nil => exact Nat.le_refl _
  | cons first _ ih =>
    obtain ⟨_, es, inner, read⟩ := ofElement_iff.1 first
    have members := Nat.le_trans (members_length_le read) (Element.sequence_length_le inner)
    have step : (toBer _).length ≤ _ := Element.toBer_length_mono members
    simp only [contentLength, List.flatMap_cons, List.length_append]
    omega

theorem ofElement_named {e : Element} {c : Envelope} (h : ofElement e = .ok c) : c.oid ≠ "" := by
  obtain ⟨_, es, _, read⟩ := ofElement_iff.1 h
  exact (ofMembers_iff.1 read).1

theorem ofBer_named {s : Octets} {c : Envelope} (h : ofBer s = .ok c) : c.oid ≠ "" := by
  obtain ⟨e, _, read⟩ := bind_ok_iff.1 h
  exact ofElement_named read

theorem listToBer_length_mono {gs cs : List Envelope} (h : contentLength gs ≤ contentLength cs) :
    (listToBer gs).length ≤ (listToBer cs).length :=
  Element.toBer_length_mono (by rwa [listContent_length, listContent_length])

theorem listOfBer_ok {s : Octets} {cs : List Envelope} (h : listOfBer s = .ok cs) :
    (∀ c ∈ cs, c.oid ≠ "") ∧ contentLength cs < 2 ^ 32 ∧ (listToBer cs).length ≤ s.length := by
  obtain ⟨es, read, inner⟩ := bind_ok_iff.1 h
  have read := blame_ok_iff.1 read
  obtain ⟨content, spelled, parts⟩ := Element.read_members.1 read
  have named : ∀ c ∈ cs, c.oid ≠ "" := by
    intro c member
    obtain ⟨e, _, taken⟩ := exists_of_mem_mapM inner member
    exact ofElement_named taken
  have elements := contentLength_le_elements inner
  have content_le := Element.sequence_length_le parts
  have content_lt : content.length < 2 ^ 32 := spelled.content_lt
  have fewer : ((cs.map toElement).flatMap Element.toBer).length ≤
      (es.flatMap Element.toBer).length := by
    have same : ((cs.map toElement).flatMap Element.toBer).length = contentLength cs :=
      listContent_length cs
    rwa [same]
  exact ⟨named, by omega, Element.read_members_length_le read fewer⟩

theorem listOfBer_listToBer_refines {s : Octets} {gs cs : List Envelope} (h : listOfBer s = .ok cs)
    (refines : List.Forall₂ Refines gs cs) :
    contentLength gs < 2 ^ 32 ∧ listOfBer (listToBer gs) = .ok gs ∧
    (listToBer gs).length ≤ s.length := by
  obtain ⟨named, small, shorter⟩ := listOfBer_ok h
  have fewer := contentLength_le refines
  have named : ∀ g ∈ gs, g.oid ≠ "" := by
    clear h small shorter fewer
    induction refines with
    | nil => simp
    | cons first _ ih =>
      rw [List.forall_mem_cons] at named ⊢
      exact ⟨first.oid ▸ named.1, ih named.2⟩
  exact ⟨by omega, (listOfBer_listToBer_iff (by omega)).2 ⟨rfl, named, by omega⟩,
    Nat.le_trans (listToBer_length_mono fewer) shorter⟩

end Ldap.Envelope
