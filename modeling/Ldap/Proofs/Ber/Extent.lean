import Ldap.Proofs.Ber.Element
import Ldap.Proofs.Outcome

/-! Where elements end. What a reader takes off the front is marked off by its own octets: before
any other rest the same is taken, and a part of it is too short. So a part of an element is never
an element, octets behind it are counted, and a content falls apart into elements in one way
only. -/
namespace Ldap.Ber

namespace Reader

def RunsShort {α : Type} (x : Reader α) (s : Octets) : Prop :=
  ∃ needed remaining unread, x s = .error (.truncated needed remaining) unread ∧ remaining < needed

section
variable {α β : Type} {x : Reader α} {f : α → Reader β} {s unread : Octets} {a : α}

theorem RunsShort.bind (h : x.RunsShort s) (f : α → Reader β) : (x >>= f).RunsShort s := by
  obtain ⟨needed, remaining, unread, short, less⟩ := h
  exact ⟨needed, remaining, unread, bind_of_error short, less⟩

theorem RunsShort.bind_of_ok (first : x s = .ok a unread) (h : (f a).RunsShort unread) :
    (x >>= f).RunsShort s := by
  rwa [RunsShort, Reader.bind_of_ok first]

end

/-- Octets that a reader takes for a value, whatever follows; no part of them is enough. -/
structure Takes {α : Type} (x : Reader α) (used : Octets) (a : α) : Prop where
  whole : ∀ rest, x (used ++ rest) = .ok a rest
  part : ∀ cut missing, used = cut ++ missing → missing ≠ [] → x.RunsShort cut

theorem Takes.pure {α : Type} (a : α) : Takes (pure a) [] a where
  whole _ := rfl
  part _ _ nothing some := absurd (List.append_eq_nil_iff.1 nothing.symm).2 some

theorem Takes.bind {α β : Type} {x : Reader α} {f : α → Reader β} {front used : Octets} {a : α}
    {b : β} (first : x.Takes front a) (next : (f a).Takes used b) :
    (x >>= f).Takes (front ++ used) b where
  whole rest := by rw [List.append_assoc, bind_of_ok (first.whole _), next.whole]
  part cut missing split some := by
    -- The cut is behind the front, inside of it, or just between the two readers.
    rcases List.append_eq_append_iff.1 split with ⟨later, rfl, rest⟩ | ⟨lost, inside, rfl⟩
    · exact .bind_of_ok (first.whole later) (next.part later missing rest some)
    · cases lost with
      | nil =>
        have taken := first.whole []
        rw [inside, List.append_nil, List.append_nil] at taken
        exact .bind_of_ok taken (next.part [] used rfl some)
      | cons b lost => exact (first.part cut (b :: lost) inside nofun).bind f

def Delimits {α : Type} (x : Reader α) : Prop :=
  ∀ s a rest, x s = .ok a rest → ∃ used, s = used ++ rest ∧ x.Takes used a

theorem Delimits.pure {α : Type} (a : α) : Delimits (pure a) := by
  intro s b rest read
  obtain ⟨rfl, rfl⟩ := pure_ok.1 read
  exact ⟨[], rfl, .pure a⟩

theorem Delimits.throw {α : Type} (e : Error) : Delimits (throw e : Reader α) :=
  fun _ _ _ read => absurd read throw_ok

theorem Delimits.bind {α β : Type} {x : Reader α} {f : α → Reader β} (first : x.Delimits)
    (next : ∀ a, (f a).Delimits) : (x >>= f).Delimits := by
  intro s b rest read
  obtain ⟨a, unread, readFirst, readNext⟩ := bind_ok.1 read
  obtain ⟨front, rfl, takesFront⟩ := first s a unread readFirst
  obtain ⟨used, rfl, takesUsed⟩ := next a unread b rest readNext
  exact ⟨front ++ used, (List.append_assoc ..).symm, takesFront.bind takesUsed⟩

theorem Takes.octet (b : UInt8) : octet.Takes [b] b where
  whole _ := rfl
  part cut missing split some := by
    cases cut with
    | nil => exact ⟨1, 0, [], rfl, Nat.one_pos⟩
    | cons c cut =>
      have nothing : missing = [] := by
        have none := (List.cons.inj split).2
        exact (List.append_eq_nil_iff.1 none.symm).2
      exact absurd nothing some

theorem Takes.take (s : Octets) : (take s.length).Takes s s where
  whole rest := take_ok.2 ⟨rfl, rfl⟩
  part cut missing split some := by
    have fewer : cut.length < s.length := by
      have := List.length_pos_iff.2 some
      rw [split, List.length_append]
      omega
    refine ⟨s.length, cut.length, cut, ?_, fewer⟩
    rw [Reader.take, if_pos (by simp; omega)]

theorem octet_delimits : octet.Delimits := by
  intro s b rest read
  exact ⟨[b], octet_ok.1 read, .octet b⟩

theorem take_delimits (n : Nat) : (take n).Delimits := by
  intro s front rest read
  obtain ⟨rfl, rfl⟩ := take_ok.1 read
  exact ⟨front, rfl, .take front⟩

theorem tag_delimits : tag.Delimits := by
  refine octet_delimits.bind fun t => ?_
  split
  · exact .throw _
  · exact .pure t

theorem lengthFrom_delimits (first : UInt8) : (lengthFrom first).Delimits := by
  unfold lengthFrom
  split
  · exact .pure _
  · dsimp only
    split
    · exact .throw _
    · split
      · exact .throw _
      · exact (take_delimits _).bind fun digits => .pure _

theorem element_delimits : element.Delimits :=
  tag_delimits.bind fun _ => (octet_delimits.bind lengthFrom_delimits).bind fun n =>
    (take_delimits n).bind fun _ => .pure _

end Reader

namespace Element

theorem takes_of_ofBer {d : Octets} {e : Element} (h : ofBer d = .ok e) :
    Reader.element.Takes d e := by
  have read : Reader.element d = .ok e [] :=
    Reader.element_iff.2 ⟨d, ofBer_iff.1 h, (List.append_nil d).symm⟩
  obtain ⟨used, whole, takes⟩ := Reader.element_delimits d e [] read
  rwa [whole, List.append_nil]

theorem two_le_length {d : Octets} {e : Element} (h : ofBer d = .ok e) : 2 ≤ d.length := by
  have read := (takes_of_ofBer h).whole []
  rw [List.append_nil] at read
  simpa using Reader.element_ok_length read

theorem ofBer_of_runsShort {s : Octets} (h : Reader.element.RunsShort s) :
    ∃ needed remaining, ofBer s = .error (.truncated needed remaining) ∧ remaining < needed := by
  obtain ⟨needed, remaining, unread, short, less⟩ := h
  exact ⟨needed, remaining, by rw [ofBer, short], less⟩

theorem ofBer_append {d s : Octets} {e : Element} (h : ofBer d = .ok e) (more : s ≠ []) :
    ofBer (d ++ s) = .error (.trailingOctets s.length) := by
  rw [ofBer, (takes_of_ofBer h).whole s]
  cases s with
  | nil => exact absurd rfl more
  | cons b s => rfl

/-- An element ends where its own octets say. Every part that is cut off in front of that end is
found to be too short, with the octets that are needed and the fewer that are there; octets behind
it are counted as not belonging to it, and a reader takes the element and leaves exactly these. So
no element is the beginning of another. -/
theorem marks_its_own_end {d : Octets} {e : Element} (h : ofBer d = .ok e) :
    (∀ cut, cut <+: d → cut ≠ d →
      ∃ needed remaining, ofBer cut = .error (.truncated needed remaining) ∧ remaining < needed) ∧
    (∀ s, s ≠ [] → ofBer (d ++ s) = .error (.trailingOctets s.length)) ∧
    (∀ s, Reader.element (d ++ s) = .ok e s) ∧
    ∀ other f, ofBer other = .ok f → other <+: d → other = d := by
  have takes := takes_of_ofBer h
  have refused (cut : Octets) (front : cut <+: d) (proper : cut ≠ d) :
      ∃ needed remaining, ofBer cut = .error (.truncated needed remaining) ∧
      remaining < needed := by
    obtain ⟨missing, rfl⟩ := front
    exact ofBer_of_runsShort (takes.part cut missing rfl (by rintro rfl; simp at proper))
  refine ⟨refused, fun s more => ofBer_append h more, takes.whole, fun other f read front => ?_⟩
  by_contra proper
  obtain ⟨needed, remaining, short, -⟩ := refused other front proper
  rw [read] at short
  cases short

def padded : Octets := [0x04, 0x82, 0x00, 0x02, 0x04, 0x00]

theorem padded_cut :
    (∃ needed remaining, ofBer (padded.take 3) = .error (.truncated needed remaining) ∧
      remaining < needed) ∧
    (∃ needed remaining, ofBer (padded.take 5) = .error (.truncated needed remaining) ∧
      remaining < needed) ∧
    ofBer (padded ++ [0x05, 0x00]) = .error (.trailingOctets 2) ∧
    Reader.element (padded ++ [0x05, 0x00]) = .ok ⟨0x04, [0x04, 0x00]⟩ [0x05, 0x00] := by
  obtain ⟨refused, trailing, first, -⟩ :=
    marks_its_own_end (by rfl : ofBer padded = .ok ⟨0x04, [0x04, 0x00]⟩)
  exact ⟨refused _ (List.take_prefix 3 padded) (by decide),
    refused _ (List.take_prefix 5 padded) (by decide), trailing _ (by decide), first _⟩

/-! Contents. -/

def Parts (ds : List Octets) (es : List Element) : Prop :=
  List.Forall₂ (fun d e => ofBer d = .ok e) ds es

theorem sequence_iff_parts {v : Octets} {es : List Element} :
    sequence v = .ok es ↔ ∃ ds, Parts ds es ∧ v = ds.flatten := by
  simp only [sequence_iff, Parts, ofBer_iff]

theorem Parts.sequence_append {ds : List Octets} {es : List Element} (h : Parts ds es)
    (w : Octets) :
    sequence (ds.flatten ++ w) = (es ++ ·) <$> sequence w := by
  induction h with
  | nil => exact (id_map (sequence w)).symm
  | @cons d e ds es first _ ih =>
    rw [List.flatten_cons, List.append_assoc, sequence_of_ok ((takes_of_ofBer first).whole _),
      ih, ← comp_map]
    rfl

theorem Parts.two_mul_length_le {ds : List Octets} {es : List Element} (h : Parts ds es) :
    2 * es.length ≤ ds.flatten.length := by
  induction h with
  | nil => exact Nat.le_refl 0
  | cons first _ ih =>
    have := two_le_length first
    rw [List.length_cons, List.flatten_cons, List.length_append]
    omega

theorem Parts.unique {ds others : List Octets} {es fs : List Element} (h : Parts ds es)
    (other : Parts others fs) (same : ds.flatten = others.flatten) : ds = others ∧ es = fs := by
  induction h generalizing others fs with
  | nil =>
    cases other with
    | nil => exact ⟨rfl, rfl⟩
    | cons first rest =>
      have := (Parts.two_mul_length_le (.cons first rest))
      simp [← same] at this
  | @cons d e ds es first rest ih =>
    cases other with
    | nil =>
      have := (Parts.two_mul_length_le (.cons first rest))
      simp [same] at this
    | @cons d' e' others fs first' rest' =>
      have read := (takes_of_ofBer first).whole ds.flatten
      rw [← List.flatten_cons, same, List.flatten_cons, (takes_of_ofBer first').whole] at read
      simp only [EStateM.Result.ok.injEq] at read
      obtain ⟨rfl, tails⟩ := read
      obtain ⟨rfl, rfl⟩ := ih rest' tails.symm
      rw [List.flatten_cons, List.flatten_cons, List.append_left_inj] at same
      exact ⟨by rw [same], rfl⟩

/-- The splitting as a loop, which reads one element in each round; nothing if the rounds do not
suffice. -/
def splitWithin : Nat → Octets → List Element → Option (Except Error (List Element))
  | _, [], es => some (.ok es)
  | 0, _ :: _, _ => none
  | rounds + 1, b :: s, es =>
    match Reader.element (b :: s) with
    | .ok e rest => splitWithin rounds rest (es ++ [e])
    | .error e _ => some (.error e)

theorem splitWithin_eq {rounds : Nat} {s : Octets} (enough : s.length ≤ 2 * rounds)
    (es : List Element) :
    splitWithin rounds s es = some ((es ++ ·) <$> sequence s) := by
  induction rounds generalizing s es with
  | zero =>
    have nothing : s = [] := by simpa using enough
    subst nothing
    simp [splitWithin, sequence]
  | succ rounds ih =>
    cases s with
    | nil => simp [splitWithin, sequence]
    | cons b s =>
      rw [splitWithin]
      cases read : Reader.element (b :: s) with
      | ok e rest =>
        have := Reader.element_ok_length read
        dsimp only
        rw [ih (by omega), sequence_of_ok read, ← comp_map]
        congr 2
        funext others
        simp
      | error fault unread => rw [sequence_of_error read]; rfl

/-- A content is read as elements if and only if it consists of octets that are elements by
themselves, one behind the other, and it does so in one way only, with two octets at least for
each of them. The loop that splits it ends, as each of its rounds takes two octets or fails.
Behind a content that is read, another is read, or refused, as it is by itself. -/
theorem content_splits_one_way (v : Octets) :
    (∀ rounds, v.length ≤ 2 * rounds → splitWithin rounds v [] = some (sequence v)) ∧
    (∀ es, sequence v = .ok es ↔ ∃ ds, Parts ds es ∧ v = ds.flatten) ∧
    (∀ ds es others fs, Parts ds es → Parts others fs → v = ds.flatten → v = others.flatten →
      ds = others ∧ es = fs ∧ 2 * es.length ≤ v.length) ∧
    ∀ es, sequence v = .ok es → ∀ w, sequence (v ++ w) = (es ++ ·) <$> sequence w := by
  refine ⟨fun rounds enough => ?_, fun es => sequence_iff_parts, ?_, fun es read w => ?_⟩
  · rw [splitWithin_eq enough]
    exact congrArg some (id_map (sequence v))
  · rintro ds es others fs parts other rfl same
    obtain ⟨cuts, elements⟩ := parts.unique other same
    exact ⟨cuts, elements, parts.two_mul_length_le⟩
  · obtain ⟨ds, parts, rfl⟩ := sequence_iff_parts.1 read
    exact parts.sequence_append w

def pair : Octets := [0x04, 0x00] ++ [0x01, 0x81, 0x01, 0xFF]

theorem pair_splits :
    splitWithin 3 pair [] = some (.ok [⟨0x04, []⟩, ⟨0x01, [0xFF]⟩]) ∧
    (∀ ds es, Parts ds es → pair = ds.flatten → ds = [[0x04, 0x00], [0x01, 0x81, 0x01, 0xFF]]) ∧
    sequence (pair ++ [0x02, 0x02, 0x00]) = .error (.truncated 2 1) := by
  obtain ⟨loop, split, unique, append⟩ := content_splits_one_way pair
  have parts : Parts [[0x04, 0x00], [0x01, 0x81, 0x01, 0xFF]] [⟨0x04, []⟩, ⟨0x01, [0xFF]⟩] :=
    .cons rfl (.cons rfl .nil)
  have read := (split _).2 ⟨_, parts, rfl⟩
  refine ⟨?_, fun ds es other whole => (unique _ _ _ _ other parts whole rfl).1, ?_⟩
  · rw [loop 3 (by decide), read]
  · rw [append _ read,
      sequence_of_error
        (by rfl : Reader.element [0x02, 0x02, 0x00] = .error (.truncated 2 1) [0x00])]
    rfl

end Element
end Ldap.Ber
