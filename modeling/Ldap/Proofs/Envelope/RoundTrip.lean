import Ldap.Proofs.Ber.Writer
import Ldap.Proofs.Envelope.Grammar

/-! Writing envelopes and reading them back. A written envelope or list is read as itself or
refused as malformed: it is refused when an OID is empty, and from four gigabytes of content on,
where the length that is written takes more octets than readers allow. -/
namespace Ldap.Envelope
open Ber

@[simp] theorem write_eq (c : Envelope) (w : Writer) : c.write w = some (w.append c.toBer) := by
  change (c.members.foldl (fun w e => w.element e) (w.start Tag.sequence).2).finish
    (w.start Tag.sequence).1 = _
  rw [Writer.foldl_element, Writer.finish_start]
  rfl

@[simp] theorem foldlM_write (cs : List Envelope) (w : Writer) :
    cs.foldlM (fun w c => c.write w) w = some (w.append (cs.flatMap toBer)) := by
  induction cs generalizing w with
  | nil => simp
  | cons c cs ih =>
    rw [List.foldlM_cons, write_eq, Option.bind_eq_bind, Option.bind_some, ih, Writer.append_append,
      List.flatMap_cons]

@[simp] theorem writeList_eq (cs : List Envelope) (w : Writer) :
    writeList cs w = some (w.append (listToBer cs)) := by
  change cs.foldlM (fun w c => c.write w) (w.start listTag).2 >>=
    Writer.finish (w.start listTag).1 = _
  rw [foldlM_write, Option.bind_eq_bind, Option.bind_some, Writer.finish_start]
  rw [listToBer, Element.ofChildren, List.flatMap_map]
  rfl

theorem ofBer_toBer_iff {c g : Envelope} (fits : c.toElement.content.length < 2 ^ 64) :
    ofBer c.toBer = .ok g ↔ g = c ∧ c.oid ≠ "" ∧ c.toElement.content.length < 2 ^ 32 := by
  unfold ofBer toBer
  by_cases small : c.toElement.content.length < 2 ^ 32
  · have found : Element.ofBer c.toElement.toBer = .ok c.toElement :=
      Element.ofBer_toBer Tag.sequence_single small
    rw [found, blame_ok, ok_bind, ofElement_toElement small, ofMembers_members_iff]
    simp only [small, and_true]
  · rw [Element.ofBer_toBer_large Tag.sequence_single (Nat.le_of_not_lt small) fits,
      blame_error, error_bind]
    simp only [small, and_false, reduceCtorEq]

def contentLength : List Envelope → Nat
  | [] => 0
  | c :: cs => c.toBer.length + contentLength cs

theorem listContent_length (cs : List Envelope) :
    (Element.ofChildren listTag (cs.map toElement)).content.length = contentLength cs := by
  induction cs with
  | nil => rfl
  | cons c cs ih =>
    simp only [Element.ofChildren, List.map_cons, List.flatMap_cons, List.length_append] at ih ⊢
    rw [ih, contentLength, toBer]

theorem toBer_le_contentLength {c : Envelope} {cs : List Envelope} (member : c ∈ cs) :
    c.toBer.length ≤ contentLength cs := by
  rw [← listContent_length]
  exact Element.toBer_le_flatMap (List.mem_map_of_mem member)

@[simp] theorem listTag_single : Tag.isMultiOctet listTag = false := by decide

theorem listOfBer_listToBer_small {cs : List Envelope} (small : contentLength cs < 2 ^ 32) :
    listOfBer (listToBer cs) = (cs.map toElement).mapM ofElement := by
  have found := Element.read_members_toBer (cs.map toElement) listTag_single
    (by simp only [List.forall_mem_map]; exact fun _ _ => Tag.sequence_single)
    (by rwa [listContent_length])
  unfold listOfBer listToBer
  simp [found]

theorem mapM_ofElement_iff {cs gs : List Envelope} (small : contentLength cs < 2 ^ 32) :
    (cs.map toElement).mapM ofElement = .ok gs ↔ gs = cs ∧ ∀ c ∈ cs, c.oid ≠ "" := by
  -- The bound is on the whole list and does not survive its induction; what follows for each
  -- envelope does.
  have each : ∀ c ∈ cs, ∀ g, ofElement c.toElement = .ok g ↔ g = c ∧ c.oid ≠ "" := by
    intro c member g
    have := toBer_le_contentLength member
    have := Element.content_le_toBer c.toElement
    rw [ofElement_toElement (by unfold toBer at *; omega), ofMembers_members_iff]
  rw [mapM_ok_iff, List.forall₂_map_left_iff]
  clear small
  induction cs generalizing gs with
  | nil => simp
  | cons c cs ih =>
    have first := each c List.mem_cons_self
    cases gs with
    | nil => simp
    | cons g gs =>
      have others := @ih gs fun c member => each c (List.mem_cons_of_mem _ member)
      simp only [List.forall₂_cons, first, others, List.cons.injEq, List.forall_mem_cons]
      tauto

theorem listOfBer_listToBer_iff {cs gs : List Envelope} (fits : contentLength cs < 2 ^ 64) :
    listOfBer (listToBer cs) = .ok gs ↔ gs = cs ∧ (∀ c ∈ cs, c.oid ≠ "") ∧
    contentLength cs < 2 ^ 32 := by
  by_cases small : contentLength cs < 2 ^ 32
  · rw [listOfBer_listToBer_small small, mapM_ofElement_iff small]
    simp only [small, and_true]
  · have refused :=
      Element.ofBer_toBer_large (e := .ofChildren listTag (cs.map toElement)) listTag_single
      (by rw [listContent_length]; omega) (by rwa [listContent_length])
    unfold listOfBer listToBer
    rw [refused]
    simp only [error_bind, blame_error, small, and_false, reduceCtorEq]

theorem ofBer_toBer_refused {c : Envelope} (fits : c.toElement.content.length < 2 ^ 64)
    (changed : ofBer c.toBer ≠ .ok c) : ∃ e, ofBer c.toBer = .error e ∧ e.kind = .malformed := by
  refine (ofBer_fails c.toBer).exists_error fun g read => ?_
  obtain ⟨rfl, _⟩ := (ofBer_toBer_iff fits).1 read
  exact changed read

theorem listOfBer_listToBer_refused {cs : List Envelope} (fits : contentLength cs < 2 ^ 64)
    (changed : listOfBer (listToBer cs) ≠ .ok cs) :
    ∃ e, listOfBer (listToBer cs) = .error e ∧ e.kind = .malformed := by
  refine (listOfBer_fails (listToBer cs)).exists_error fun gs read => ?_
  obtain ⟨rfl, _⟩ := (listOfBer_listToBer_iff fits).1 read
  exact changed read

/-- Written lists and written envelopes, into a buffer of their own, come back whole exactly when
they are named and short enough; otherwise they are refused as malformed. -/
theorem round_trip_iff (cs : List Envelope) (c : Envelope) (list_fits : contentLength cs < 2 ^ 64)
    (fits : c.toElement.content.length < 2 ^ 64) :
    (writeList cs .empty = some ⟨listToBer cs⟩ ∧
      (listOfBer (listToBer cs) = .ok cs ↔ (∀ g ∈ cs, g.oid ≠ "") ∧ contentLength cs < 2 ^ 32) ∧
      (listOfBer (listToBer cs) ≠ .ok cs →
        ∃ e, listOfBer (listToBer cs) = .error e ∧ e.kind = .malformed)) ∧
    (c.write .empty = some ⟨c.toBer⟩ ∧
      (ofBer c.toBer = .ok c ↔ c.oid ≠ "" ∧ c.toElement.content.length < 2 ^ 32) ∧
      (ofBer c.toBer ≠ .ok c → ∃ e, ofBer c.toBer = .error e ∧ e.kind = .malformed)) := by
  have list_read : listOfBer (listToBer cs) = .ok cs ↔ _ := listOfBer_listToBer_iff list_fits
  have read : ofBer c.toBer = .ok c ↔ _ := ofBer_toBer_iff fits
  rw [eq_self, true_and] at list_read read
  exact ⟨⟨writeList_eq cs .empty, list_read, listOfBer_listToBer_refused list_fits⟩,
    write_eq c .empty, read, ofBer_toBer_refused fits⟩

theorem round_trip_of_values : let named : List Envelope :=
      [⟨"1.2", true, none⟩, ⟨"1.2", false, some []⟩, ⟨"1.2", true, some (List.replicate 130 0x30)⟩]
    listOfBer (listToBer named) = .ok named ∧
    ∃ e, listOfBer (listToBer (named ++ [⟨"", true, none⟩])) = .error e ∧ e.kind = .malformed := by
  intro named
  have whole := round_trip_iff named ⟨"", true, none⟩ (by decide +kernel) (by decide +kernel)
  have unnamed :=
    round_trip_iff (named ++ [⟨"", true, none⟩]) ⟨"1.2", true, none⟩ (by decide +kernel)
    (by decide +kernel)
  refine ⟨whole.1.2.1.2 (by decide +kernel), unnamed.1.2.2 fun read => ?_⟩
  exact absurd (unnamed.1.2.1.1 read).1 (by decide +kernel)

end Ldap.Envelope
