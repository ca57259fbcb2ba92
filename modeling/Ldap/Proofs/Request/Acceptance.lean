import Ldap.Proofs.Request.Value

/-! Which octets are the value of a request. Members of the get authorization entry request stand
in any order and each at most once; those of the synchronization request stand in their own order
or not at all. All other octets are malformed, and the fault names the OID of the request. -/
namespace Ldap
open Ber

namespace GetAuthorizationEntry

def Spells (s : Octets) (r : GetAuthorizationEntry) : Prop :=
  ∃ es, Element.Constructs Tag.sequence s es ∧ Completes {} es r

inductive Respelled : Element → Element → Prop
  | same (e : Element) : Respelled e e
  | list {a b : Octets} {es : List Element} : Element.SpellsAll a es → Element.SpellsAll b es →
      Respelled ⟨attributesTag, a⟩ ⟨attributesTag, b⟩

theorem Respelled.tag_eq {e f : Element} (h : Respelled e f) : e.tag = f.tag := by
  cases h <;> rfl

theorem Respelled.texts_iff {e f : Element} (h : Respelled e f) (names : List String) :
    Texts e.content names ↔ Texts f.content names := by
  cases h with
  | same => exact Iff.rfl
  | list here there =>
    constructor
    · intro read
      obtain rfl := here.unique read
      exact there
    · intro read
      obtain rfl := there.unique read
      exact here

theorem Respelled.addMember_iff {e f : Element} (h : Respelled e f)
    {r next : GetAuthorizationEntry} :
    r.addMember e = .ok next ↔ r.addMember f = .ok next := by
  cases h with
  | same => exact Iff.rfl
  | list here there =>
    have texts := (Respelled.list here there).texts_iff
    simp only [GetAuthorizationEntry.addMember_iff, texts, tags_distinct.2.1.symm,
      tags_distinct.2.2.symm, false_and]

theorem completes_respelled {es fs : List Element} (alike : List.Forall₂ Respelled es fs)
    {r next : GetAuthorizationEntry} : Completes r es next ↔ Completes r fs next := by
  induction alike generalizing r with
  | nil => exact Iff.rfl
  | @cons e f es fs first others ih =>
    have tags : es.map Element.tag = fs.map Element.tag := by
      rw [← List.forall₂_eq_eq_eq, List.forall₂_map_left_iff, List.forall₂_map_right_iff]
      exact others.imp fun _ _ same => same.tag_eq
    have fresh : (∀ g ∈ es, g.tag ≠ e.tag) ↔ ∀ g ∈ fs, g.tag ≠ f.tag := by
      rw [← List.forall_mem_map (P := (· ≠ e.tag)), tags, first.tag_eq, List.forall_mem_map]
    simp only [completes_cons, fresh, first.addMember_iff, ih]

theorem completes_reordered {es fs gs : List Element} (order : es.Perm fs)
    (alike : List.Forall₂ Respelled fs gs) {r next : GetAuthorizationEntry} :
    Completes r es next ↔ Completes r gs next := by
  rw [← completes_respelled alike]
  exact ⟨fun h => h.perm order, fun h => h.perm order.symm⟩

theorem spells_iff_completes {s : Octets} {es : List Element}
    (members : Element.Constructs Tag.sequence s es) {r : GetAuthorizationEntry} :
    Spells s r ↔ Completes {} es r := by
  constructor
  · rintro ⟨fs, others, h⟩
    rwa [members.unique others]
  · intro h
    exact ⟨es, members, h⟩

theorem addMember_blames (r : GetAuthorizationEntry) (e : Element) :
    OnlyFails (·.Blames oid) (r.addMember e) := by
  unfold addMember
  split
  · exact (OnlyFails.blame_blames _ _).bind fun _ => .ok _
  · split
    · exact (OnlyFails.blame_blames _ _).bind fun _ => .ok _
    · split
      · exact (OnlyFails.blame_blames _ _).bind fun _ => .ok _
      · exact .error ⟨_, rfl⟩

theorem addMembers_blames (seen : List Tag) (r : GetAuthorizationEntry) (es : List Element) :
    OnlyFails (·.Blames oid) (addMembers seen r es) := by
  induction es generalizing seen r with
  | nil => exact .ok r
  | cons e es ih =>
    rw [addMembers]
    split
    · exact .error ⟨_, rfl⟩
    · exact (addMember_blames r e).bind fun next => ih _ next

theorem ofBer_blames (s : Octets) : OnlyFails (·.Blames oid) (ofBer s) :=
  (OnlyFails.blame_blames _ _).bind fun es => addMembers_blames [] {} es

end GetAuthorizationEntry

namespace SyncRequest

/-- The octets that a request may be written with: its mode, a cookie or none, an octet of the
hint or none. -/
inductive Spells : Octets → SyncRequest → Prop
  | intro {s : Octets} (mode : SyncMode) (cookie : Option Octets) (hint : Option UInt8) :
      Element.Constructs Tag.sequence s (.ofEnumerated mode.code ::
        (cookie.toList.map .ofOctets ++ hint.toList.map (Element.mk Tag.boolean [·]))) →
      Spells s ⟨mode, cookie, hint.any (· != 0)⟩

theorem ofBer_iff_spells {s : Octets} {r : SyncRequest} : ofBer s = .ok r ↔ Spells s r := by
  rw [ofBer_iff]
  constructor
  · rintro ⟨es, members, read⟩
    obtain ⟨_, isFlag, rfl⟩ := ofMembers_iff.1 read
    obtain ⟨hint, same, rfl⟩ := Element.flag_iff.1 isFlag
    obtain ⟨mode, cookie, reloadHint⟩ := r
    cases same
    exact .intro mode cookie hint members
  · rintro ⟨mode, cookie, hint, members⟩
    exact ⟨_, members, ofMembers_iff.2 ⟨_, Element.flag_iff.2 ⟨hint, rfl, rfl⟩, rfl⟩⟩

theorem readMode_blames (es : List Element) : OnlyFails (·.Blames oid) (readMode es) := by
  cases es with
  | nil => exact .error ⟨_, rfl⟩
  | cons e es =>
    refine (OnlyFails.blame_blames _ _).bind fun n => OnlyFails.bind ?_ fun mode => .ok _
    unfold SyncMode.ofCode
    split
    · exact .ok _
    · split
      · exact .ok _
      · exact .error ⟨_, rfl⟩

theorem ofMembers_blames (es : List Element) : OnlyFails (·.Blames oid) (ofMembers es) := by
  refine (readMode_blames es).bind fun (mode, rest) => ?_
  refine (OnlyFails.blame_blames _ _).bind fun (hint, rest) => ?_
  dsimp only
  split
  · exact .ok _
  · exact .error ⟨_, rfl⟩

theorem ofBer_blames (s : Octets) : OnlyFails (·.Blames oid) (ofBer s) :=
  (OnlyFails.blame_blames _ _).bind ofMembers_blames

end SyncRequest

namespace RequestControl

def carrier (kind : Request.Kind) (critical : Bool) (s : Octets) : Envelope :=
  ⟨kind.oid, critical, some s⟩

theorem ofEnvelope_getAuthorizationEntry (critical : Bool) (s : Octets) :
    ofEnvelope .getAuthorizationEntry (carrier .getAuthorizationEntry critical s) =
      (fun r => ⟨critical, .getAuthorizationEntry r⟩) <$> GetAuthorizationEntry.ofBer s := by
  rw [ofEnvelope_own rfl, carrier, Request.ofValue]
  cases GetAuthorizationEntry.ofBer s <;> rfl

theorem ofEnvelope_sync (critical : Bool) (s : Octets) :
    ofEnvelope .sync (carrier .sync critical s) = (fun r => ⟨critical, .sync r⟩) <$>
      SyncRequest.ofBer s := by
  rw [ofEnvelope_own rfl, carrier, Request.ofValue]
  cases SyncRequest.ofBer s <;> rfl

theorem ofEnvelope_getAuthorizationEntry_iff {critical : Bool} {s : Octets} {a : RequestControl} :
    ofEnvelope .getAuthorizationEntry (carrier .getAuthorizationEntry critical s) = .ok a ↔
      ∃ r, GetAuthorizationEntry.Spells s r ∧ a = ⟨critical, .getAuthorizationEntry r⟩ := by
  rw [ofEnvelope_getAuthorizationEntry, map_ok_iff]
  simp only [GetAuthorizationEntry.ofBer_iff, GetAuthorizationEntry.Spells, @eq_comm _ _ a]

theorem ofEnvelope_sync_iff {critical : Bool} {s : Octets} {a : RequestControl} :
    ofEnvelope .sync (carrier .sync critical s) = .ok a ↔ ∃ r, SyncRequest.Spells s r ∧
    a = ⟨critical, .sync r⟩ := by
  rw [ofEnvelope_sync, map_ok_iff]
  simp only [SyncRequest.ofBer_iff_spells, @eq_comm _ _ a]

/-- The value of a get authorization entry request is read if and only if it is a sequence of at
most one member for each field, in any order; what is missing has its default. So neither the
order of members nor the spelling of lengths, outside or inside of them, decides on what is read.
All other values are malformed. -/
theorem members_read_in_any_order (critical : Bool) (s : Octets) :
    (∀ a, ofEnvelope .getAuthorizationEntry (carrier .getAuthorizationEntry critical s) = .ok a ↔
      ∃ r, GetAuthorizationEntry.Spells s r ∧ a = ⟨critical, .getAuthorizationEntry r⟩) ∧
    (∀ es fs gs t, Element.Constructs Tag.sequence s es → es.Perm fs →
      List.Forall₂ GetAuthorizationEntry.Respelled fs gs → Element.Constructs Tag.sequence t gs →
      ∀ a, ofEnvelope .getAuthorizationEntry (carrier .getAuthorizationEntry critical t) = .ok a ↔
        ofEnvelope .getAuthorizationEntry (carrier .getAuthorizationEntry critical s) = .ok a) ∧
    ((∀ r, ¬ GetAuthorizationEntry.Spells s r) →
      ∃ reason, ofEnvelope .getAuthorizationEntry (carrier .getAuthorizationEntry critical s) =
        .error (.malformed GetAuthorizationEntry.oid reason)) := by
  refine ⟨fun a => ofEnvelope_getAuthorizationEntry_iff,
    fun es fs gs t here order alike there a => ?_, fun unspelled => ?_⟩
  · simp only [ofEnvelope_getAuthorizationEntry_iff,
      GetAuthorizationEntry.spells_iff_completes here,
      GetAuthorizationEntry.spells_iff_completes there,
      GetAuthorizationEntry.completes_reordered order alike]
  · have never : ∀ r, GetAuthorizationEntry.ofBer s ≠ .ok r := fun r read =>
      unspelled r (GetAuthorizationEntry.ofBer_iff.1 read)
    obtain ⟨reason, fault⟩ := (GetAuthorizationEntry.ofBer_blames s).exists_malformed never
    exact ⟨reason, by rw [ofEnvelope_getAuthorizationEntry, fault]; rfl⟩

def inTagOrder : Octets :=
  [0x30, 0x0B, 0x80, 0x01, 0x00, 0x81, 0x01, 0x05, 0xA2, 0x03, 0x04, 0x01, 0x61]

def attributesFirst : Octets :=
  [0x30, 0x81, 0x0F, 0xA2, 0x81, 0x04, 0x04, 0x81, 0x01, 0x61, 0x81, 0x82, 0x00, 0x01, 0x05,
    0x80, 0x01, 0x00]

def repeatedAuthn : Octets := [0x30, 0x06, 0x80, 0x01, 0x00, 0x80, 0x01, 0x00]

theorem attributes_first_read :
    (∀ a, ofEnvelope .getAuthorizationEntry (carrier .getAuthorizationEntry true attributesFirst) =
      .ok a ↔
      ofEnvelope .getAuthorizationEntry (carrier .getAuthorizationEntry true inTagOrder) = .ok a) ∧
    GetAuthorizationEntry.Spells attributesFirst ⟨false, true, ["a"]⟩ ∧
    (∀ r, ¬ GetAuthorizationEntry.Spells repeatedAuthn r) ∧
    ∃ reason, ofEnvelope .getAuthorizationEntry
        (carrier .getAuthorizationEntry true repeatedAuthn) =
      .error (.malformed GetAuthorizationEntry.oid reason) := by
  have list (content : Octets) (read : Element.sequence content = .ok [.ofText "a"]) :
      Element.SpellsAll content [.ofText "a"] := Element.sequence_iff.1 read
  have here : Element.Constructs Tag.sequence inTagOrder
      [⟨0x80, [0x00]⟩, ⟨0x81, [0x05]⟩, ⟨0xA2, [0x04, 0x01, 0x61]⟩] :=
    Element.read_members_iff.1 (by decide +kernel)
  have there : Element.Constructs Tag.sequence attributesFirst
      [⟨0xA2, [0x04, 0x81, 0x01, 0x61]⟩, ⟨0x81, [0x05]⟩, ⟨0x80, [0x00]⟩] :=
    Element.read_members_iff.1 (by decide +kernel)
  have alike : List.Forall₂ GetAuthorizationEntry.Respelled
      [⟨0xA2, [0x04, 0x01, 0x61]⟩, ⟨0x81, [0x05]⟩, ⟨0x80, [0x00]⟩]
      [⟨0xA2, [0x04, 0x81, 0x01, 0x61]⟩, ⟨0x81, [0x05]⟩, ⟨0x80, [0x00]⟩] :=
    .cons (.list (list _ (by decide +kernel)) (list _ (by decide +kernel)))
      (.cons (.same _) (.cons (.same _) .nil))
  have fault : GetAuthorizationEntry.ofBer repeatedAuthn =
      .error (.malformed GetAuthorizationEntry.oid (.duplicateElement 0x80)) := by decide +kernel
  have unspelled : ∀ r, ¬ GetAuthorizationEntry.Spells repeatedAuthn r := by
    intro r spelled
    rw [GetAuthorizationEntry.ofBer_iff.2 spelled] at fault
    cases fault
  exact ⟨(members_read_in_any_order true inTagOrder).2.1 _ _ _ _ here (by decide) alike there,
    GetAuthorizationEntry.ofBer_iff.1 (by decide +kernel), unspelled,
    (members_read_in_any_order true repeatedAuthn).2.2 unspelled⟩

/-- The value of a synchronization request is read if and only if it is a sequence of a mode, then
a cookie or none, then a hint or none, and of nothing else. All other values are malformed. -/
theorem members_read_in_order (critical : Bool) (s : Octets) :
    (∀ a, ofEnvelope .sync (carrier .sync critical s) = .ok a ↔
      ∃ r, SyncRequest.Spells s r ∧ a = ⟨critical, .sync r⟩) ∧
    ((∀ r, ¬ SyncRequest.Spells s r) →
      ∃ reason, ofEnvelope .sync (carrier .sync critical s) =
        .error (.malformed SyncRequest.oid reason)) := by
  refine ⟨fun a => ofEnvelope_sync_iff, fun unspelled => ?_⟩
  have never : ∀ r, SyncRequest.ofBer s ≠ .ok r :=
    fun r read => unspelled r (SyncRequest.ofBer_iff_spells.1 read)
  obtain ⟨reason, fault⟩ := (SyncRequest.ofBer_blames s).exists_malformed never
  exact ⟨reason, by rw [ofEnvelope_sync, fault]; rfl⟩

def lateCookie : Octets := [0x30, 0x08, 0x0A, 0x01, 0x01, 0x01, 0x01, 0x00, 0x04, 0x00]

theorem empty_cookie_read :
    ofEnvelope .sync (carrier .sync true
      [0x30, 0x08, 0x0A, 0x01, 0x03, 0x04, 0x00, 0x01, 0x01, 0x02]) =
        .ok ⟨true, .sync ⟨.refreshAndPersist, some [], true⟩⟩ ∧
    (∀ r, ¬ SyncRequest.Spells lateCookie r) ∧
    ∃ reason, ofEnvelope .sync (carrier .sync true lateCookie) =
      .error (.malformed SyncRequest.oid reason) := by
  have members :
      Element.Constructs Tag.sequence [0x30, 0x08, 0x0A, 0x01, 0x03, 0x04, 0x00, 0x01, 0x01, 0x02]
        [⟨0x0A, [0x03]⟩, ⟨0x04, []⟩, ⟨0x01, [0x02]⟩] :=
    Element.read_members_iff.1 (by decide +kernel)
  have fault : SyncRequest.ofBer lateCookie =
      .error (.malformed SyncRequest.oid (.unrecognizedElement 0x04)) := by decide +kernel
  have unspelled : ∀ r, ¬ SyncRequest.Spells lateCookie r := by
    intro r spelled
    rw [SyncRequest.ofBer_iff_spells.2 spelled] at fault
    cases fault
  have spelled := SyncRequest.Spells.intro .refreshAndPersist (some []) (some 0x02) members
  exact ⟨((members_read_in_order true _).1 _).2 ⟨_, spelled, rfl⟩, unspelled,
    (members_read_in_order true lateCookie).2 unspelled⟩

end RequestControl
end Ldap
