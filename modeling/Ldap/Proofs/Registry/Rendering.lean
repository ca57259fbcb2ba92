import Ldap.Proofs.Registry.Exposition

/-! What the text of the counters tells. It has the values of all counters and nothing else: the
texts of two runs are the same if and only if the counters agree, whatever the order of the
updates and of the entries of the maps. -/
namespace Ldap.Metrics
open Std (TreeMap TransCmp LawfulEqCmp OrientedCmp)
open Exposition (Line terminated_injective)

structure Agree (m n : Metrics) : Prop where
  registrations : m.registrations = n.registrations
  overrides : m.overrides = n.overrides
  passedThrough : m.passedThrough = n.passedThrough
  decoded : ∀ oid, m.decoded oid = n.decoded oid
  errors : ∀ oid kind, m.errors oid kind = n.errors oid kind

theorem agree_iff {m n : Metrics} : m.Agree n ↔
    m.registrations = n.registrations ∧ m.overrides = n.overrides ∧
    ∀ counter, m.count counter = n.count counter := by
  constructor
  · intro agree
    refine ⟨agree.registrations, agree.overrides, fun counter => ?_⟩
    cases counter with
    | passedThrough => exact agree.passedThrough
    | decoded oid => exact agree.decoded oid
    | errors oid kind => exact agree.errors oid kind
  · rintro ⟨registrations, overrides, counts⟩
    exact ⟨registrations, overrides, counts .passedThrough, fun oid => counts (.decoded oid),
      fun oid kind => counts (.errors oid kind)⟩

/-! The same text, the same counters. -/

def Counter.metric : Counter → String
  | .passedThrough => "ldap_controls_passthrough_total"
  | .decoded _ => "ldap_controls_decoded_total"
  | .errors _ _ => "ldap_controls_decode_errors_total"

def Counter.labels : Counter → List (String × String)
  | .passedThrough => []
  | .decoded oid => [("oid", oid)]
  | .errors oid kind => [("oid", oid), ("kind", kind.name)]

theorem sample_mem_counterLines {metric name help : String}
    {samples : List (List (String × String) × UInt64)} {labels : List (String × String)}
    {value : Nat} : Line.sample name labels value ∈ counterLines metric help samples ↔
      name = metric ∧ ∃ n, (labels, n) ∈ samples ∧ value = n.toNat := by
  simp only [counterLines, List.mem_cons, List.mem_map, reduceCtorEq, false_or, Line.sample.injEq]
  constructor
  · rintro ⟨⟨_, n⟩, there, rfl, rfl, rfl⟩
    exact ⟨rfl, n, there, rfl⟩
  · rintro ⟨rfl, n, there, rfl⟩
    exact ⟨(labels, n), there, rfl, rfl, rfl⟩

section
variable {m n : Metrics}

theorem sample_mem_ownSeries {counter : Counter} {value : Nat} :
    .sample counter.metric counter.labels value ∈ m.ownSeries ↔ m.Tracks counter ∧
    value = (m.count counter).toNat := by
  simp only [ownSeries, series, List.mem_append, sample_mem_counterLines]
  cases counter with
  | passedThrough => simp [Counter.metric, Counter.labels, Tracks, count]
  | decoded oid => simp [Counter.metric, Counter.labels, Tracks, count, TreeMap.mem_keys]
  | errors oid kind =>
    have named (f : Failures) : f.oid = oid ∧ f.kind.name = kind.name ↔ f = ⟨oid, kind⟩ := by
      constructor
      · rintro ⟨rfl, names⟩
        rw [← DecodeError.Kind.name_injective names]
      · rintro rfl
        exact ⟨rfl, rfl⟩
    simp [Counter.metric, Counter.labels, Tracks, count, TreeMap.mem_keys, and_assoc, named]

theorem registrations_mem_ownSeries {value : Nat} :
    .sample "ldap_controls_registrations_total" [] value ∈ m.ownSeries ↔
      value = m.registrations.toNat := by
  simp [ownSeries, series, sample_mem_counterLines]

theorem overrides_mem_ownSeries {value : Nat} :
    .sample "ldap_controls_overrides_total" [] value ∈ m.ownSeries ↔ value = m.overrides.toNat := by
  simp [ownSeries, series, sample_mem_counterLines]

theorem count_of_not_tracks {counter : Counter} (untracked : ¬ m.Tracks counter) :
    m.count counter = 0 := by
  cases counter with
  | passedThrough => exact absurd trivial untracked
  | decoded oid => exact TreeMap.getD_eq_fallback untracked
  | errors oid kind => exact TreeMap.getD_eq_fallback untracked

theorem ownSeries_eq_of_render_eq (same : m.render = n.render) : m.ownSeries = n.ownSeries := by
  refine terminated_injective series_valid series_valid ?_
  rw [← render_toList, ← render_toList, same]

theorem agree_of_render_eq (same : m.render = n.render) : m.Agree n := by
  have lines := ownSeries_eq_of_render_eq same
  refine agree_iff.2 ⟨?_, ?_, fun counter => ?_⟩
  · have here := registrations_mem_ownSeries.2 (Eq.refl m.registrations.toNat)
    rw [lines, registrations_mem_ownSeries] at here
    exact UInt64.toNat_inj.1 here
  · have here := overrides_mem_ownSeries.2 (Eq.refl m.overrides.toNat)
    rw [lines, overrides_mem_ownSeries] at here
    exact UInt64.toNat_inj.1 here
  · have either (value : Nat) : m.Tracks counter ∧ value = (m.count counter).toNat ↔
        n.Tracks counter ∧ value = (n.count counter).toNat := by
      rw [← sample_mem_ownSeries, lines, sample_mem_ownSeries]
    by_cases tracked : m.Tracks counter
    · exact UInt64.toNat_inj.1 ((either _).1 ⟨tracked, rfl⟩).2
    · have also : ¬ n.Tracks counter := fun there => tracked ((either _).2 ⟨there, rfl⟩).1
      rw [count_of_not_tracks tracked, count_of_not_tracks also]

/-! The same counters, the same text. -/

theorem keys_eq_of_mem_iff {α : Type} {order : α → α → Ordering} [TransCmp order]
    [LawfulEqCmp order] {counts others : TreeMap α UInt64 order}
    (same : ∀ key, key ∈ counts ↔ key ∈ others) :
    counts.keys = others.keys := by
  have perm : counts.keys.Perm others.keys :=
    (List.perm_ext_iff_of_nodup TreeMap.nodup_keys TreeMap.nodup_keys).2 (by
    intro key
    rw [TreeMap.mem_keys, TreeMap.mem_keys, same])
  have asymmetric (a b : α) (less : order a b = .lt) (more : order b a = .lt) : a = b :=
    absurd more (OrientedCmp.not_lt_of_lt less)
  exact perm.eq_of_pairwise (fun a b _ _ => asymmetric a b) TreeMap.ordered_keys
    TreeMap.ordered_keys

theorem render_eq_of_agree (agree : m.Agree n)
    (tracked : ∀ counter, m.Tracks counter ↔ n.Tracks counter) :
    m.render = n.render := by
  have decoded : m.decodedByOid.keys = n.decodedByOid.keys :=
    keys_eq_of_mem_iff fun oid => tracked (.decoded oid)
  have failed : m.failures.keys = n.failures.keys :=
    keys_eq_of_mem_iff fun f => tracked (.errors f.oid f.kind)
  have lines : m.ownSeries = n.ownSeries := by
    simp only [ownSeries, series, decoded, failed, agree.registrations, agree.overrides,
      agree.passedThrough, agree.decoded, agree.errors]
  rw [render, render, lines_eq, lines_eq, lines]

end

section
variable {us vs : List Update}

theorem tracks_of_agree (few : us.length < 2 ^ 64) (alsoFew : vs.length < 2 ^ 64)
    (agree : (after us).Agree (after vs)) (counter : Counter) :
    (after us).Tracks counter ↔ (after vs).Tracks counter := by
  obtain ⟨-, -, counts⟩ := agree_iff.1 agree
  simp [mem_iff_count_ne_zero few, mem_iff_count_ne_zero alsoFew, counts]

theorem agree_of_perm (perm : us.Perm vs) : (after us).Agree (after vs) := by
  refine agree_iff.2 ⟨?_, ?_, fun counter => ?_⟩
  · simp [after, perm.count_eq]
  · simp [after, perm.count_eq]
  · simp [perm.count_eq]

theorem render_eq_of_perm (perm : us.Perm vs) : (after us).render = (after vs).render := by
  refine render_eq_of_agree (agree_of_perm perm) fun counter => ?_
  simp [perm.mem_iff]

end

/-! The order of the entries. -/

section
variable {α : Type} (order : α → α → Ordering)

def entryOrder : α × UInt64 → α × UInt64 → Ordering :=
  compareLex (fun a b => order a.1 b.1) (compareOn Prod.snd)

def sortEntries (entries : List (α × UInt64)) : List (α × UInt64) :=
  entries.mergeSort fun a b => (entryOrder order a b).isLE

variable {order} [TransCmp order]

instance : TransCmp fun a b : α × UInt64 => order a.1 b.1 where
  eq_swap := OrientedCmp.eq_swap
  isLE_trans := TransCmp.isLE_trans

instance : TransCmp (entryOrder order) :=
  inferInstanceAs (TransCmp (compareLex (fun a b : α × UInt64 =>
    order a.1 b.1) (compareOn Prod.snd)))

theorem sortEntries_eq_toList [LawfulEqCmp order] {counts : TreeMap α UInt64 order}
    {entries : List (α × UInt64)} (perm : entries.Perm counts.toList) :
    sortEntries order entries = counts.toList := by
  have total (a b : α × UInt64) : ((entryOrder order a b).isLE || (entryOrder order b a).isLE) =
      true := by
    rw [Bool.or_eq_true, or_iff_not_imp_left]
    intro notLess
    rw [OrientedCmp.lt_of_not_isLE notLess]
    rfl
  have sorted : (sortEntries order entries).Pairwise fun a b => (entryOrder order a b).isLE :=
    List.pairwise_mergeSort (fun _ _ _ => TransCmp.isLE_trans) total entries
  have ordered : counts.toList.Pairwise fun a b => (entryOrder order a b).isLE :=
    TreeMap.ordered_keys_toList.imp fun {a b} less => by
      simp [entryOrder, compareLex, less]
  refine List.Perm.eq_of_pairwise (fun a b _ _ less more =>
    ?_) sorted ordered ((List.mergeSort_perm ..).trans perm)
  have equal := OrientedCmp.isLE_antisymm less more
  rw [entryOrder, compareLex_eq_eq] at equal
  exact Prod.ext (LawfulEqCmp.eq_of_compare equal.1) (LawfulEqCmp.eq_of_compare equal.2)

end

def renderSorted (decoded : List (String × UInt64)) (failures : List (Failures × UInt64))
    (m : Metrics) : String :=
  .join ((m.linesOf (sortEntries compare decoded) (sortEntries Failures.order failures)).map
    (· ++ "\n"))

theorem renderSorted_eq {decoded : List (String × UInt64)} {failures : List (Failures × UInt64)}
    {m : Metrics} (allDecoded : decoded.Perm m.decodedByOid.toList)
    (allFailures : failures.Perm m.failures.toList) :
    m.renderSorted decoded failures = m.render := by
  rw [renderSorted, sortEntries_eq_toList allDecoded, sortEntries_eq_toList allFailures]
  rfl

/-- For runs that a counter can count, the texts of two runs are equal if and only if all their
counters agree. It matters neither in which order the updates came nor in which order the maps
give their entries. -/
theorem render_eq_iff_agree (us vs : List Update) (few : us.length < 2 ^ 64)
    (alsoFew : vs.length < 2 ^ 64) :
    ((after us).render = (after vs).render ↔ (after us).Agree (after vs)) ∧
    (us.Perm vs → (after us).render = (after vs).render) ∧
    ∀ decoded failures, decoded.Perm (after us).decodedByOid.toList →
      failures.Perm (after us).failures.toList →
      (after us).renderSorted decoded failures = (after us).render :=
  ⟨⟨agree_of_render_eq, fun agree => render_eq_of_agree agree (tracks_of_agree few alsoFew agree)⟩,
    render_eq_of_perm, fun _ _ => renderSorted_eq⟩

def escaped : List Update :=
  [.move (.decoded "a\""), .registration true, .move (.decoded "a\\\""),
    .move (.errors "a\"" .missingValue), .move .passedThrough, .move (.decoded "a\"")]

theorem escaped_reversed :
    (escaped.length < 2 ^ 64 ∧ escaped.reverse.length < 2 ^ 64 ∧ escaped.Perm escaped.reverse) ∧
    (after escaped).Agree (after escaped.reverse) ∧
    (after escaped).render ≠ (after escaped.dropLast).render ∧
    (after escaped).renderSorted (after escaped).decodedByOid.toList.reverse
      (after escaped).failures.toList =
      (after escaped).render := by
  have few : escaped.length < 2 ^ 64 := by decide
  have alsoFew : escaped.reverse.length < 2 ^ 64 := by decide
  have fewer : escaped.dropLast.length < 2 ^ 64 := by decide
  have reversed : escaped.Perm escaped.reverse := (List.reverse_perm _).symm
  obtain ⟨same, updates, entries⟩ := render_eq_iff_agree escaped escaped.reverse few alsoFew
  refine ⟨⟨few, alsoFew, reversed⟩, same.1 (updates reversed), fun alike => ?_,
    entries _ _ (List.reverse_perm _) (List.Perm.refl _)⟩
  have agree := (render_eq_iff_agree escaped escaped.dropLast few fewer).1.1 alike
  exact absurd (agree.decoded "a\"") (by decide +kernel)

end Ldap.Metrics
