import Ldap.Proofs.Ber.Element
import Ldap.Proofs.Outcome

/-! Members of a sequence, taken on from left to right. `Flag` is the grammar of a BOOLEAN DEFAULT
FALSE, where every octet but zero means true. -/
namespace Ldap.Ber

namespace Tag

@[simp] theorem octetString_single : isMultiOctet octetString = false := by decide
@[simp] theorem boolean_single : isMultiOctet boolean = false := by decide
@[simp] theorem enumerated_single : isMultiOctet enumerated = false := by decide
@[simp] theorem sequence_single : isMultiOctet sequence = false := by decide

end Tag

namespace Element

@[simp] theorem ofText_tag (s : String) : (ofText s).tag = Tag.octetString := rfl

@[simp] theorem expectTag_ok {t : Tag} {a b : Element} :
    a.expectTag t = .ok b ↔ a.tag = t ∧ a = b := by
  unfold expectTag
  split <;> simp_all

theorem read_members {s : Octets} {t : Tag} {es : List Element} :
    (ofBer s >>= expectTag t >>= children) = .ok es ↔
      ∃ content, Spells s ⟨t, content⟩ ∧ sequence content = .ok es := by
  simp only [bind_ok_iff, ofBer_iff, expectTag_ok]
  constructor
  · rintro ⟨e, ⟨_, spelled, rfl, rfl⟩, inner⟩
    exact ⟨_, spelled, inner⟩
  · rintro ⟨content, spelled, inner⟩
    exact ⟨_, ⟨_, spelled, rfl, rfl⟩, inner⟩

theorem read_members_toBer {t : Tag} (es : List Element) (constructed : Tag.isMultiOctet t = false)
    (single : ∀ e ∈ es, Tag.isMultiOctet e.tag = false)
    (small : (ofChildren t es).content.length < 2 ^ 32) :
    (ofBer (ofChildren t es).toBer >>= expectTag t >>= children) = .ok es :=
  read_members.2 ⟨_, spells_toBer constructed small, sequence_flatMap_toBer single small⟩

def SpellsAll (s : Octets) (es : List Element) : Prop :=
  ∃ ds, List.Forall₂ Spells ds es ∧ s = ds.flatten

theorem SpellsAll.unique {s : Octets} {es fs : List Element} (h : SpellsAll s es)
    (other : SpellsAll s fs) :
    es = fs := by
  have first := sequence_iff.2 h
  rw [sequence_iff.2 other] at first
  cases first
  rfl

/-- The octets that a constructed element may be written with, every length in a spelling of its
own. -/
def Constructs (t : Tag) (s : Octets) (es : List Element) : Prop :=
  ∃ content, Spells s ⟨t, content⟩ ∧ SpellsAll content es

theorem read_members_iff {s : Octets} {t : Tag} {es : List Element} :
    (ofBer s >>= expectTag t >>= children) = .ok es ↔ Constructs t s es := by
  simp only [read_members, sequence_iff, Constructs, SpellsAll]

theorem Constructs.unique {s : Octets} {t : Tag} {es fs : List Element} (h : Constructs t s es)
    (other : Constructs t s fs) : es = fs := by
  have first := read_members_iff.2 h
  rw [read_members_iff.2 other] at first
  cases first
  rfl

theorem constructs_toBer {t : Tag} {es : List Element} (constructed : Tag.isMultiOctet t = false)
    (single : ∀ e ∈ es, Tag.isMultiOctet e.tag = false)
    (small : (ofChildren t es).content.length < 2 ^ 32) :
    Constructs t (ofChildren t es).toBer es :=
  read_members_iff.1 (read_members_toBer es constructed single small)

theorem read_members_length_le {s : Octets} {t : Tag} {es ms : List Element}
    (h : (ofBer s >>= expectTag t >>= children) = .ok es)
    (fewer : (ms.flatMap toBer).length ≤ (es.flatMap toBer).length) :
    (ofChildren t ms).toBer.length ≤ s.length := by
  obtain ⟨content, spelled, inner⟩ := read_members.1 h
  have whole : (ofChildren t ms).content.length ≤ content.length :=
    Nat.le_trans fewer (sequence_length_le inner)
  exact Nat.le_trans (toBer_length_mono whole) spelled.toBer_length_le

@[simp] theorem text_ok {e : Element} {s : String} : e.text = .ok s ↔ e.content = utf8 s := by
  unfold text
  constructor
  · intro h
    split at h
    · rename_i read
      cases h
      exact (utf8_of_text? read).symm
    · cases h
  · intro h
    simp [h]

theorem eq_ofText {e : Element} {s : String} (tag : e.tag = Tag.octetString) (h : e.text = .ok s) :
    e = .ofText s := by
  obtain ⟨t, content⟩ := e
  cases tag
  rw [text_ok] at h
  cases h
  rfl

@[simp] theorem text_ofText (s : String) : (ofText s).text = .ok s := text_ok.2 rfl

@[simp] theorem single_ok {value : SingleOctet} {e : Element} {b : UInt8} :
    e.single value = .ok b ↔ e.content = [b] := by
  unfold single
  split <;> simp_all

theorem bool_ok {e : Element} {b : Bool} :
    e.bool = .ok b ↔ ∃ n, e.content = [n] ∧ (n != 0) = b := by
  simp [bool, pure, Except.pure]

@[simp] theorem bool_ofBool (t : Tag) (b : Bool) : (ofBool t b).bool = .ok b := by
  cases b <;> rfl

inductive Truth : Octets → Bool → Prop
  | intro (n : UInt8) : Truth [n] (n != 0)

theorem bool_iff {e : Element} {b : Bool} : e.bool = .ok b ↔ Truth e.content b := by
  rw [bool_ok]
  constructor
  · rintro ⟨n, content, rfl⟩
    rw [content]
    exact .intro n
  · intro truth
    generalize e.content = content at truth ⊢
    cases truth with
    | intro n => exact ⟨n, rfl, rfl⟩

theorem truth_ofBool (t : Tag) (b : Bool) : Truth (ofBool t b).content b :=
  bool_iff.1 (bool_ofBool t b)

theorem Truth.length_toBer {e : Element} {b : Bool} (h : Truth e.content b) :
    e.toBer.length = 3 := by
  obtain ⟨t, content⟩ := e
  cases h with
  | intro n => exact length_toBer_octet t n

/-- What members with tags of their own carry under one tag: what the content with this tag is
read as, or a default where there is none. -/
inductive Carries {α : Type} (t : Tag) (reads : Octets → α → Prop) (default : α)
    (es : List Element) : α → Prop
  | absent : (∀ e ∈ es, e.tag ≠ t) → Carries t reads default es default
  | present {content : Octets} {a : α} : ⟨t, content⟩ ∈ es → reads content a →
    Carries t reads default es a

namespace Carries
variable {α : Type} {t : Tag} {reads : Octets → α → Prop} {default a : α} {e : Element}
  {es fs : List Element}

theorem absent_iff (none : ∀ e ∈ es, e.tag ≠ t) : Carries t reads default es a ↔ a = default := by
  constructor
  · rintro (_ | ⟨there, _⟩)
    · rfl
    · exact absurd rfl (none _ there)
  · rintro rfl
    exact .absent none

theorem cons_other (other : e.tag ≠ t) :
    Carries t reads default (e :: es) a ↔ Carries t reads default es a := by
  constructor
  · rintro (none | ⟨there, read⟩)
    · exact .absent fun f member => none f (List.mem_cons_of_mem _ member)
    · rcases List.mem_cons.1 there with rfl | there
      · exact absurd rfl other
      · exact .present there read
  · rintro (none | ⟨there, read⟩)
    · exact .absent (List.forall_mem_cons.2 ⟨other, none⟩)
    · exact .present (List.mem_cons_of_mem _ there) read

theorem cons_own (own : e.tag = t) (none : ∀ f ∈ es, f.tag ≠ t) :
    Carries t reads default (e :: es) a ↔ reads e.content a := by
  constructor
  · rintro (absent | ⟨there, read⟩)
    · exact absurd own (absent e List.mem_cons_self)
    · rcases List.mem_cons.1 there with rfl | there
      · exact read
      · exact absurd rfl (none _ there)
  · intro read
    obtain ⟨tag, content⟩ := e
    cases own
    exact .present List.mem_cons_self read

@[simp] theorem singleton_iff :
    Carries t reads default [e] a ↔ if e.tag = t then reads e.content a else a = default := by
  have nothing : ∀ f ∈ ([] : List Element), f.tag ≠ t := by simp
  split
  · rename_i own
    exact cons_own own nothing
  · rename_i other
    rw [cons_other other, absent_iff nothing]

theorem cons_iff (fresh : ∀ f ∈ es, f.tag ≠ e.tag) :
    Carries t reads default (e :: es) a ↔
      ∃ between, Carries t reads default [e] between ∧ Carries t reads between es a := by
  by_cases own : e.tag = t
  · rw [own] at fresh
    rw [cons_own own fresh]
    simp [own, absent_iff fresh]
  · rw [cons_other own]
    simp [own]

theorem perm (h : Carries t reads default es a) (order : es.Perm fs) :
    Carries t reads default fs a := by
  cases h with
  | absent none => exact .absent fun e member => none e (order.mem_iff.2 member)
  | present there read => exact .present (order.mem_iff.1 there) read

end Carries

inductive Optionally {α : Type} (t : Tag) (reads : Octets → α → Prop) :
    Option α → List Element → Prop
  | absent : Optionally t reads none []
  | present {content : Octets} {a : α} : reads content a →
    Optionally t reads (some a) [⟨t, content⟩]

namespace Optionally
variable {α : Type} {t : Tag} {reads : Octets → α → Prop} {given : Option α} {es : List Element}

theorem tag_eq (h : Optionally t reads given es) : ∀ e ∈ es, e.tag = t := by
  cases h <;> simp

theorem distinct (h : Optionally t reads given es) : (es.map Element.tag).Nodup := by
  cases h <;> simp

theorem carries (h : Optionally t reads given es) {before after : List Element}
    (others : ∀ e ∈ before ++ after, e.tag ≠ t) (default : α) :
    Carries t reads default (before ++ es ++ after) (given.getD default) := by
  cases h with
  | absent => exact .absent (by simpa using others)
  | present read => exact .present (by simp) read

end Optionally

/-- The members that an optional boolean may be; false is what its absence means. -/
inductive Flag : Bool → List Element → Prop
  | absent : Flag false []
  | present (n : UInt8) : Flag (n != 0) [⟨Tag.boolean, [n]⟩]

theorem flag_written (b : Bool) : Flag b (if b then [ofBool Tag.boolean true] else []) := by
  cases b with
  | false => exact .absent
  | true => exact .present 0xFF

theorem Optionally.flag {given : Option Bool} {es : List Element}
    (h : Optionally Tag.boolean Truth given es) :
    Flag (given.getD false) es := by
  cases h with
  | absent => exact .absent
  | present truth =>
    cases truth with
    | intro n => exact .present n

theorem flag_iff {b : Bool} {es : List Element} :
    Flag b es ↔ ∃ octet : Option UInt8,
      octet.any (· != 0) = b ∧ es = octet.toList.map (Element.mk Tag.boolean [·]) := by
  constructor
  · rintro (_ | n)
    · exact ⟨none, rfl, rfl⟩
    · exact ⟨some n, rfl, rfl⟩
  · rintro ⟨octet | n, rfl, rfl⟩
    · exact .absent
    · exact .present n

theorem Flag.tag_eq {b : Bool} {es : List Element} (h : Flag b es) :
    ∀ e ∈ es, e.tag = Tag.boolean := by
  cases h <;> simp

theorem Flag.not_octets {b : Bool} {es : List Element} (h : Flag b es) :
    ∀ e ∈ es.head?, e.tag ≠ Tag.octetString := by
  cases h <;> simp [Tag.boolean, Tag.octetString]

theorem Flag.written_length_le {b : Bool} {es : List Element} (h : Flag b es) :
    ((if b then [ofBool Tag.boolean true] else []).flatMap toBer).length ≤
      (es.flatMap toBer).length := by
  cases h with
  | absent => simp
  | present n => split <;> simp [ofBool, length_toBer_octet]

theorem optionalBool_ok {es rest : List Element} {flag : Option Bool}
    (h : optionalBool es = .ok (flag, rest)) :
    ∃ front, Flag (flag.getD false) front ∧ es = front ++ rest := by
  cases es with
  | nil =>
    cases h
    exact ⟨[], .absent, rfl⟩
  | cons e es =>
    rw [optionalBool] at h
    split at h
    · rename_i tag
      obtain ⟨b, read, h⟩ := bind_ok_iff.1 h
      obtain ⟨n, content, rfl⟩ := bool_ok.1 read
      cases h
      obtain ⟨t, _⟩ := e
      cases tag
      cases content
      exact ⟨_, .present n, rfl⟩
    · cases h
      exact ⟨[], .absent, rfl⟩

theorem optionalBool_flag {b : Bool} {front : List Element} (flag : Flag b front)
    (rest : List Element) (other : ∀ e ∈ rest.head?, e.tag ≠ Tag.boolean) :
    ∃ read, optionalBool (front ++ rest) = .ok (read, rest) ∧ read.getD false = b := by
  cases flag with
  | present n => exact ⟨some (n != 0), rfl, rfl⟩
  | absent =>
    refine ⟨none, ?_, rfl⟩
    cases rest with
    | nil => rfl
    | cons e rest =>
      rw [List.nil_append, optionalBool, if_neg (other e rfl)]
      rfl

theorem optionalOctets_eq (es : List Element) :
    es = (optionalOctets es).1.toList.map ofOctets ++ (optionalOctets es).2 := by
  cases es with
  | nil => rfl
  | cons e es =>
    rw [optionalOctets]
    split
    · rename_i tag
      obtain ⟨t, content⟩ := e
      cases tag
      rfl
    · rfl

theorem optionalOctets_append (value : Option Octets) (rest : List Element)
    (other : ∀ e ∈ rest.head?, e.tag ≠ Tag.octetString) :
    optionalOctets (value.toList.map ofOctets ++ rest) = (value, rest) := by
  cases value with
  | some s => rfl
  | none =>
    cases rest with
    | nil => rfl
    | cons e rest =>
      change optionalOctets (e :: rest) = _
      rw [optionalOctets, if_neg (other e rfl)]

end Element
end Ldap.Ber
