import Ldap.Proofs.Envelope.RoundTrip

/-! Lists of envelopes against their members. A list is read as each member would be read alone,
once its octets are cut into elements; it is written as each member is written alone, whatever the
buffer holds before. -/
namespace Ldap.Envelope
open Ber

theorem mapM_ofElement {ds : List Octets} {es : List Element}
    (read : ds.mapM Element.ofBer = .ok es) :
    es.mapM ofElement = ds.mapM ofBer := by
  rw [mapM_ok_iff] at read
  induction read with
  | nil => rfl
  | cons first _ ih => simp [ih, ofBer, first]

theorem listOfBer_eq_mapM {s : Octets} {ds : List Octets}
    (elements : ∀ d ∈ ds, ∃ e, Element.ofBer d = .ok e)
    (whole : Element.ofBer s = .ok ⟨listTag, ds.flatten⟩) : listOfBer s = ds.mapM ofBer := by
  obtain ⟨es, read⟩ := exists_mapM_ok_iff.2 elements
  have members : List.Forall₂ Element.Spells ds es := by
    simpa only [mapM_ok_iff, Element.ofBer_iff] using read
  have found : (Element.ofBer s >>= Element.expectTag listTag >>= Element.children) = .ok es :=
    Element.read_members_iff.2 ⟨ds.flatten, Element.ofBer_iff.1 whole, ds, members, rfl⟩
  simp [listOfBer, found, mapM_ofElement read]

theorem listOfBer_uncut {s content : Octets} {e : Error}
    (whole : Element.ofBer s = .ok ⟨listTag, content⟩)
    (uncut : Element.sequence content = .error e) :
    listOfBer s = .error (.malformed none (.ber e)) := by
  have tag : (Element.mk listTag content).expectTag listTag = .ok ⟨listTag, content⟩ :=
    Element.expectTag_ok.2 ⟨rfl, rfl⟩
  simp [listOfBer, whole, tag, Element.children, uncut]

theorem writeList_eq_members (cs : List Envelope) (w : Writer) : writeList cs w =
    some ⟨w.buffer ++
      listTag :: (Length.encode (cs.flatMap toBer).length ++ cs.flatMap toBer)⟩ := by
  rw [writeList_eq, listToBer, Element.ofChildren, List.flatMap_map]
  rfl

/-- A list is read member by member and written member by member. Where its content is made of
elements, each with whatever tag and in whatever spelling readers take, the list is read if and
only if each of them is read alone, and then as these; otherwise the fault is that of the first
that is not read alone. Where the content cannot be cut into elements, as at a tag of several
octets, the fault is that of the cutting. Writing puts the tag, the length in its shortest form
and the members as each is written alone behind what the buffer holds. -/
theorem lists_are_pointwise {ds : List Octets} (elements : ∀ d ∈ ds, ∃ e, Element.ofBer d = .ok e)
    (small : ds.flatten.length < 2 ^ 32) :
    (Element.ofBer (Element.mk listTag ds.flatten).toBer = .ok ⟨listTag, ds.flatten⟩ ∧
      ∀ s, Element.ofBer s = .ok ⟨listTag, ds.flatten⟩ →
        (∀ cs, listOfBer s = .ok cs ↔ List.Forall₂ (fun d c => ofBer d = .ok c) ds cs) ∧
        ∀ e, listOfBer s = .error e ↔ ∃ i, FirstFault ofBer ds i e) ∧
    (∀ s content e, Element.ofBer s = .ok ⟨listTag, content⟩ → Element.sequence content = .error e →
      listOfBer s = .error (.malformed none (.ber e))) ∧
    (∀ (cs : List Envelope) (w : Writer), let content := cs.flatMap toBer
      writeList cs w = some ⟨w.buffer ++ listTag :: (Length.encode content.length ++ content)⟩ ∧
      ∀ digits, Length.value digits = content.length →
        (Length.encode content.length).length ≤ digits.length + 1) ∧
    ∀ (c : Envelope) (w : Writer), c.write .empty = some ⟨c.toBer⟩ ∧
      c.write w = some ⟨w.buffer ++ c.toBer⟩ := by
  refine ⟨⟨Element.ofBer_toBer listTag_single small, fun s whole => ?_⟩, fun s content e =>
    listOfBer_uncut, ?_, fun c w => ⟨write_eq c .empty, write_eq c w⟩⟩
  · rw [listOfBer_eq_mapM elements whole]
    exact ⟨fun cs => mapM_ok_iff, fun e => mapM_error_iff⟩
  · intro cs w content
    refine ⟨writeList_eq_members cs w, fun digits same => ?_⟩
    rw [← same]
    exact Length.encode_length_le_digits digits

def assorted : List Octets := [[0x30, 0x81, 0x03, 0x04, 0x01, 0x31], [0x04, 0x00], [0x30, 0x00]]

theorem assorted_read : listOfBer (Element.mk listTag assorted.flatten).toBer =
      .error (.malformed none (.ber (.unexpectedTag Tag.sequence Tag.octetString))) ∧
    listOfBer (Element.mk listTag (assorted.take 1).flatten).toBer = .ok [⟨"1", false, none⟩] ∧
    writeList [⟨"1", false, none⟩, ⟨"1", true, none⟩] ⟨[0xFF]⟩ =
      some ⟨[0xFF, 0xA0, 0x0D, 0x30, 0x03, 0x04, 0x01, 0x31, 0x30, 0x06, 0x04, 0x01, 0x31, 0x01,
        0x01, 0xFF]⟩ := by
  have elements : ∀ d ∈ assorted, ∃ e, Element.ofBer d = .ok e :=
    exists_mapM_ok_iff.1 ⟨[⟨0x30, [0x04, 0x01, 0x31]⟩, ⟨0x04, []⟩, ⟨0x30, []⟩], by decide +kernel⟩
  have front : ∀ d ∈ assorted.take 1, ∃ e, Element.ofBer d = .ok e := fun d member =>
    elements d (List.mem_of_mem_take member)
  obtain ⟨⟨whole, read⟩, -, written, -⟩ := lists_are_pointwise elements (by decide)
  obtain ⟨⟨alone, first⟩, -⟩ := lists_are_pointwise front (by decide)
  refine ⟨((read _ whole).2 _).2 ⟨1, ⟨?_, ?_⟩⟩, ((first _ alone).1 _).2 ?_, (written _ _).1⟩
  · exact exists_mapM_ok_iff.1 ⟨[⟨"1", false, none⟩], by decide +kernel⟩
  · exact ⟨[0x04, 0x00], rfl, by decide +kernel⟩
  · exact .cons (by decide +kernel) .nil

end Ldap.Envelope
