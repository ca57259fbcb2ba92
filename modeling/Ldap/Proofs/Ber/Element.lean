import Ldap.Proofs.Ber.Length
import Ldap.Proofs.Outcome

/-! What readers accept. `Element.Spells` is the grammar of one element; reading takes one spelled
element off the front, and a sequence is a concatenation of such spellings. The written form is
one of them, and no other is shorter. -/
namespace Ldap.Ber

namespace Reader

theorem bind_of_ok {α β : Type} {x : Reader α} {f : α → Reader β} {s unread : Octets} {a : α}
    (h : x s = .ok a unread) : (x >>= f) s = f a unread := by
  simp only [bind, EStateM.bind, h]

theorem bind_of_error {α β : Type} {x : Reader α} {f : α → Reader β} {s unread : Octets} {e : Error}
    (h : x s = .error e unread) : (x >>= f) s = .error e unread := by
  simp only [bind, EStateM.bind, h]

theorem length_iff {s rest : Octets} {n : Nat} :
    length s = .ok n rest ↔ ∃ l, Length.Spells l n ∧ s = l ++ rest := by
  constructor
  · intro read
    obtain ⟨first, unread, front, read⟩ := bind_ok.1 read
    rw [octet_ok] at front
    unfold lengthFrom at read
    split at read
    · rename_i short
      obtain ⟨rfl, rfl⟩ := pure_ok.1 read
      exact ⟨_, .short first short, front⟩
    · rename_i long
      split at read
      · exact absurd read throw_ok
      · rename_i some_digit
        split at read
        · exact absurd read throw_ok
        · rename_i few
          obtain ⟨ds, unread, taken, read⟩ := bind_ok.1 read
          obtain ⟨rfl, rfl⟩ := pure_ok.1 read
          obtain ⟨rfl, count⟩ := take_ok.1 taken
          refine ⟨Length.announce ds.length :: ds, ?_, ?_⟩
          · rw [Length.word_toNat (by omega)]
            exact .long ds (by rintro rfl; exact some_digit count.symm) (by omega)
          · rw [front, count, ← Length.eq_announce first long]
            rfl
  · rintro ⟨l, spelled, rfl⟩
    refine bind_ok.2 ?_
    cases spelled with
    | short b clear => exact ⟨b, rest, rfl, by simp [lengthFrom, clear, pure_ok]⟩
    | long ds nonempty few =>
      refine ⟨Length.announce ds.length, ds ++ rest, rfl, ?_⟩
      have count := Length.announce_count ds.length (by omega)
      unfold lengthFrom
      rw [if_neg (Length.announce_long ds.length (by omega)), count,
        if_neg (by simpa using nonempty), if_neg (by omega)]
      refine bind_ok.2 ⟨ds, rest, take_ok.2 ⟨rfl, rfl⟩, ?_⟩
      rw [Length.word_toNat few]
      rfl

theorem length_announce {count : Nat} (many : 4 < count) (fits : count < 128) (rest : Octets) :
    length (Length.announce count :: rest) = .error (.lengthTooLarge count) rest := by
  have front : octet (Length.announce count :: rest) = .ok (Length.announce count) rest := rfl
  unfold length
  rw [bind_of_ok front, lengthFrom, if_neg (Length.announce_long count fits),
    Length.announce_count count fits, if_neg (by omega), if_pos many]
  rfl

end Reader

namespace Element

/-- The octets that an element may be written with. -/
inductive Spells : Octets → Element → Prop
  | intro (tag : Tag) (l content : Octets) : Tag.isMultiOctet tag = false →
      Length.Spells l content.length → Spells (tag :: (l ++ content)) ⟨tag, content⟩

theorem Spells.single {d : Octets} {e : Element} (h : Spells d e) :
    Tag.isMultiOctet e.tag = false := by
  cases h
  assumption

theorem Spells.content_lt {d : Octets} {e : Element} (h : Spells d e) :
    e.content.length < 2 ^ 32 := by
  cases h with
  | intro tag l content _ spelled => exact spelled.lt

theorem length_toBer (e : Element) :
    e.toBer.length = 1 + (Length.encode e.content.length).length + e.content.length := by
  simp only [toBer, List.length_cons, List.length_append]
  omega

theorem length_toBer_octet (t : Tag) (b : UInt8) : (Element.mk t [b]).toBer.length = 3 := by
  simp [length_toBer, Length.encode]

theorem content_le_toBer (e : Element) : e.content.length ≤ e.toBer.length := by
  rw [length_toBer]
  omega

theorem toBer_length_le_add {e : Element} (fits : e.content.length < 256 ^ 8) :
    e.toBer.length ≤ e.content.length + 10 := by
  have count := Length.digits_length_le fits
  have announced : (Length.encode e.content.length).length ≤ 9 := by
    unfold Length.encode
    split
    · simp
    · rw [List.length_cons]
      omega
  rw [length_toBer]
  omega

theorem Spells.toBer_length_le {d : Octets} {e : Element} (h : Spells d e) :
    e.toBer.length ≤ d.length := by
  cases h with
  | intro tag l content _ spelled =>
    have := spelled.encode_length_le
    rw [length_toBer]
    simp only [List.length_cons, List.length_append]
    omega

theorem toBer_length_mono {a b : Element} (h : a.content.length ≤ b.content.length) :
    a.toBer.length ≤ b.toBer.length := by
  have := Length.encode_length_mono h
  rw [length_toBer, length_toBer]
  omega

theorem spells_toBer {e : Element} (single : Tag.isMultiOctet e.tag = false)
    (small : e.content.length < 2 ^ 32) : Spells e.toBer e :=
  .intro e.tag _ e.content single (Length.spells_encode small)

end Element

namespace Reader

theorem element_iff {s rest : Octets} {e : Element} :
    element s = .ok e rest ↔ ∃ d, Element.Spells d e ∧ s = d ++ rest := by
  constructor
  · intro read
    obtain ⟨t, afterTag, readTag, read⟩ := bind_ok.1 read
    obtain ⟨n, afterLength, readLength, read⟩ := bind_ok.1 read
    obtain ⟨content, unread, taken, read⟩ := bind_ok.1 read
    obtain ⟨rfl, rfl⟩ := pure_ok.1 read
    obtain ⟨rfl, single⟩ := tag_ok.1 readTag
    obtain ⟨l, spelled, rfl⟩ := length_iff.1 readLength
    obtain ⟨rfl, rfl⟩ := take_ok.1 taken
    exact ⟨_, .intro t l content single spelled, by simp⟩
  · rintro ⟨d, spelled, rfl⟩
    cases spelled with
    | intro t l content single spelled =>
      refine bind_ok.2 ⟨t, l ++ content ++ rest, tag_ok.2 ⟨rfl, single⟩, ?_⟩
      refine bind_ok.2 ⟨content.length, content ++ rest, length_iff.2 ⟨l, spelled, by simp⟩, ?_⟩
      exact bind_ok.2 ⟨content, rest, take_ok.2 ⟨rfl, rfl⟩, rfl⟩

theorem element_front {d : Octets} {e : Element} (first : Element.Spells d e) (ds : List Octets) :
    element (d :: ds).flatten = .ok e ds.flatten :=
  element_iff.2 ⟨d, first, List.flatten_cons⟩

end Reader

namespace Element

theorem ofBer_iff {s : Octets} {e : Element} : ofBer s = .ok e ↔ Spells s e := by
  unfold ofBer
  constructor
  · intro read
    split at read
    · rename_i front
      obtain ⟨d, spelled, rfl⟩ := Reader.element_iff.1 front
      cases read
      simpa using spelled
    · cases read
    · cases read
  · intro spelled
    rw [Reader.element_iff.2 ⟨s, spelled, (List.append_nil s).symm⟩]

theorem ofBer_toBer {e : Element} (single : Tag.isMultiOctet e.tag = false)
    (small : e.content.length < 2 ^ 32) : ofBer e.toBer = .ok e :=
  ofBer_iff.2 (spells_toBer single small)

theorem ofBer_toBer_large {e : Element} (single : Tag.isMultiOctet e.tag = false)
    (large : 2 ^ 32 ≤ e.content.length) (fits : e.content.length < 2 ^ 64) :
    ofBer e.toBer = .error (.lengthTooLarge (Length.digits e.content.length).length) := by
  have many : 4 < (Length.digits e.content.length).length :=
    Length.digits_length_lt (by simpa using large)
  have few : (Length.digits e.content.length).length ≤ 8 :=
    Length.digits_length_le (by simpa using fits)
  have front : Reader.tag e.toBer = .ok e.tag (Length.encode e.content.length ++ e.content) :=
    Reader.tag_ok.2 ⟨rfl, single⟩
  have refused :=
    Reader.length_announce many (by omega) (Length.digits e.content.length ++ e.content)
  unfold ofBer Reader.element
  rw [Reader.bind_of_ok front, Length.encode_long (by omega), List.cons_append,
    Reader.bind_of_error refused]

theorem sequence_of_ok {s rest : Octets} {e : Element} (read : Reader.element s = .ok e rest) :
    sequence s = (e :: ·) <$> sequence rest := by
  cases s with
  | nil => simpa using Reader.element_ok_length read
  | cons b s =>
    rw [sequence]
    split
    · rename_i f others again
      rw [read] at again
      cases again
      rfl
    · rename_i fault unread again
      rw [read] at again
      cases again

theorem sequence_of_error {b : UInt8} {s unread : Octets} {fault : Error}
    (refused : Reader.element (b :: s) = .error fault unread) :
    sequence (b :: s) = .error fault := by
  rw [sequence]
  split
  · rename_i e rest again
    rw [refused] at again
    cases again
  · rename_i other unread again
    rw [refused] at again
    cases again
    rfl

theorem sequence_iff {s : Octets} {es : List Element} :
    sequence s = .ok es ↔ ∃ ds, List.Forall₂ Spells ds es ∧ s = ds.flatten := by
  constructor
  · intro read
    fun_induction sequence s generalizing es with
    | case1 =>
      cases read
      exact ⟨[], .nil, rfl⟩
    | case2 b s e rest front ih =>
      obtain ⟨d, first, split⟩ := Reader.element_iff.1 front
      obtain ⟨others, tail, rfl⟩ := map_ok_iff.1 read
      obtain ⟨ds, spelled, rfl⟩ := ih tail
      exact ⟨d :: ds, .cons first spelled, by rw [split, List.flatten_cons]⟩
    | case3 => cases read
  · rintro ⟨ds, spelled, rfl⟩
    induction spelled with
    | nil => rw [List.flatten_nil, sequence]
    | cons first _ ih =>
      rw [sequence_of_ok (Reader.element_front first _), ih]
      rfl

theorem sequence_length_le {s : Octets} {es : List Element} (h : sequence s = .ok es) :
    (es.flatMap toBer).length ≤ s.length := by
  obtain ⟨ds, spelled, rfl⟩ := sequence_iff.1 h
  clear h
  induction spelled with
  | nil => simp
  | cons first _ ih =>
    have := first.toBer_length_le
    simp only [List.flatMap_cons, List.flatten_cons, List.length_append]
    omega

theorem toBer_le_flatMap {e : Element} {es : List Element} (h : e ∈ es) :
    e.toBer.length ≤ (es.flatMap toBer).length := by
  obtain ⟨before, after, rfl⟩ := List.append_of_mem h
  simp only [List.flatMap_append, List.flatMap_cons, List.length_append]
  omega

theorem sequence_flatMap_toBer {es : List Element}
    (single : ∀ e ∈ es, Tag.isMultiOctet e.tag = false)
    (small : (es.flatMap toBer).length < 2 ^ 32) : sequence (es.flatMap toBer) = .ok es := by
  refine sequence_iff.2 ⟨es.map toBer, ?_, List.flatMap_def ..⟩
  rw [List.forall₂_map_left_iff, List.forall₂_same]
  intro e member
  have := toBer_le_flatMap member
  have := e.content_le_toBer
  exact spells_toBer (single e member) (by omega)

theorem children_ofChildren (tag : Tag) {es : List Element}
    (single : ∀ e ∈ es, Tag.isMultiOctet e.tag = false)
    (small : (ofChildren tag es).content.length < 2 ^ 32) : (ofChildren tag es).children = .ok es :=
  sequence_flatMap_toBer single small

end Element
end Ldap.Ber
