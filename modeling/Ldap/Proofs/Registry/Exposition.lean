import Ldap.Proofs.Registry.Updates
import Ldap.Proofs.Text.Exposition

/-! The text of the counters as lines of an exposition. The lines are those of the five metrics,
and each is read as what it was written for. But a line feed in an OID is written as it is, so
that it ends the line of the label. -/
namespace Ldap.Metrics
open Std (TreeMap TransCmp LawfulEqCmp)
open Exposition (IsName Line line? terminated)

def counterLines (metric help : String) (samples : List (List (String × String) × UInt64)) :
    List Line :=
  .help metric help :: .type metric "counter" ::
    samples.map fun (labels, n) => .sample metric labels n.toNat

def series (oids : List String) (failures : List Failures) (m : Metrics) : List Line :=
  counterLines "ldap_controls_registrations_total"
    "Total decoder registrations, including overrides."
    [([], m.registrations)] ++
  counterLines "ldap_controls_overrides_total" "Registrations that replaced an existing decoder."
    [([], m.overrides)] ++
  counterLines "ldap_controls_passthrough_total"
    "Controls left generic because no decoder is registered."
    [([], m.passedThrough)] ++
  counterLines "ldap_controls_decoded_total" "Controls decoded into a typed representation by OID."
    (oids.map fun oid => ([("oid", oid)], m.decoded oid)) ++
  counterLines "ldap_controls_decode_errors_total" "Decode failures by OID and error kind."
    (failures.map fun f => ([("oid", f.oid), ("kind", f.kind.name)], m.errors f.oid f.kind))

def ownSeries (m : Metrics) : List Line := m.series m.decodedByOid.keys m.failures.keys

theorem family_eq (metric help : String) (samples : List (List (String × String) × UInt64)) :
    family metric help (samples.map fun (labels, n) => (Line.labelsText labels, n)) =
      (counterLines metric help samples).map Line.text := by
  have typed : "# TYPE " ++ metric ++ " counter" = (Line.type metric "counter").text := by
    have kind : " counter" = " " ++ "counter" := by decide
    rw [Line.text, kind, ← String.append_assoc]
  simp only [family, counterLines, List.map_map, List.map_cons, List.cons_append,
    List.nil_append, ← typed]
  rfl

theorem toList_eq_map_keys {α : Type} {order : α → α → Ordering} [TransCmp order]
    [LawfulEqCmp order] (counts : TreeMap α UInt64 order) :
    counts.toList = counts.keys.map fun key => (key, counts.getD key 0) := by
  rw [← TreeMap.map_fst_toList_eq_keys, List.map_map]
  refine (List.map_id _).symm.trans (List.map_congr_left fun entry there => ?_)
  have found := TreeMap.mem_toList_iff_getElem?_eq_some.1 there
  rw [Function.comp_apply, TreeMap.getD_eq_getD_getElem?, found]
  rfl

theorem lines_eq (m : Metrics) : m.lines = m.ownSeries.map Line.text := by
  rw [lines, linesOf, toList_eq_map_keys, toList_eq_map_keys]
  simp only [ownSeries, series, List.map_append, ← family_eq, List.map_map]
  rfl

theorem render_toList (m : Metrics) :
    m.render.toList = terminated (m.ownSeries.map (·.text.toList)) := by
  rw [render, String.toList_join, lines_eq, terminated, List.map_map, List.flatMap_map,
    List.flatMap_map]
  congr 1
  funext line
  rw [Function.comp_apply, String.toList_append]
  rfl

section
variable {oids : List String} {failures : List Failures} {m : Metrics}

theorem counterLines_valid {metric help : String} {samples : List (List (String × String) × UInt64)}
    (named : IsName metric) (free : '\n' ∉ help.toList)
    (labelled : ∀ sample ∈ samples, ∀ label ∈ sample.1, IsName label.1) :
    ∀ line ∈ counterLines metric help samples, line.Valid := by
  simp only [counterLines, List.forall_mem_cons, List.forall_mem_map]
  exact ⟨⟨named, free⟩, ⟨named, by decide⟩, fun sample there => ⟨named, labelled sample there⟩⟩

theorem series_valid : ∀ line ∈ m.series oids failures, line.Valid := by
  simp only [series, List.forall_mem_append]
  have named : IsName "oid" ∧ IsName "kind" := by decide
  refine ⟨⟨⟨⟨?_, ?_⟩, ?_⟩, ?_⟩, ?_⟩
  all_goals refine counterLines_valid (by decide +kernel) (by decide +kernel) ?_
  all_goals simp only [List.forall_mem_map, List.forall_mem_cons, named, List.not_mem_nil,
    false_imp_iff, implies_true, and_self]

@[simp] theorem length_series :
    (m.series oids failures).length = 13 + oids.length + failures.length := by
  simp only [series, counterLines, List.length_append, List.length_cons, List.length_map,
    List.length_nil]
  omega

theorem forall_labels_counterLines {metric help : String}
    {samples : List (List (String × String) × UInt64)} {p : String × String → Prop} :
    (∀ line ∈ counterLines metric help samples, ∀ label ∈ line.labels, p label) ↔
      ∀ sample ∈ samples, ∀ label ∈ sample.1, p label := by
  simp only [counterLines, List.forall_mem_cons, List.forall_mem_map, Line.labels, List.not_mem_nil,
    false_imp_iff, implies_true, true_and]

theorem lineFeed_not_mem_kind (kind : DecodeError.Kind) : '\n' ∉ kind.name.toList := by
  cases kind <;> decide

theorem series_whole_iff : (∀ text ∈ (m.series oids failures).map (·.text.toList), '\n' ∉ text) ↔
    (∀ oid ∈ oids, '\n' ∉ oid.toList) ∧ ∀ f ∈ failures, '\n' ∉ f.oid.toList := by
  have feeds : ∀ line ∈ m.series oids failures,
      ('\n' ∉ line.text.toList ↔ ∀ label ∈ line.labels, '\n' ∉ label.2.toList) := by
    intro line there
    rw [Exposition.lineFeed_mem_text_iff (series_valid line there)]
    simp
  rw [List.forall_mem_map, forall₂_congr feeds]
  simp only [series, List.forall_mem_append, forall_labels_counterLines, List.forall_mem_map,
    List.forall_mem_cons, lineFeed_not_mem_kind, List.not_mem_nil, not_false_iff, false_imp_iff,
    implies_true, and_true, true_and]

end

structure Lists (us : List Update) (oids : List String) (failures : List Failures) : Prop where
  oidsOnce : oids.Nodup
  oids : ∀ oid, oid ∈ oids ↔ .move (.decoded oid) ∈ us
  failuresOnce : failures.Nodup
  failures : ∀ f, f ∈ failures ↔ .move (.errors f.oid f.kind) ∈ us

theorem lists_keys (us : List Update) :
    Lists us (after us).decodedByOid.keys (after us).failures.keys where
  oidsOnce := TreeMap.nodup_keys
  oids oid := by
    have tracked := tracks_after us (.decoded oid)
    rw [TreeMap.mem_keys]
    simpa [Tracks] using tracked
  failuresOnce := TreeMap.nodup_keys
  failures f := by
    have tracked := tracks_after us (.errors f.oid f.kind)
    rw [TreeMap.mem_keys]
    simpa [Tracks] using tracked

theorem Lists.length_series_eq {us : List Update} {oids others : List String}
    {failures otherFailures : List Failures} (lists : Lists us oids failures)
    (also : Lists us others otherFailures) (m : Metrics) :
    (m.series oids failures).length = (m.series others otherFailures).length := by
  have sameOids : oids.Perm others :=
    (List.perm_ext_iff_of_nodup lists.oidsOnce also.oidsOnce).2 fun oid =>
      (lists.oids oid).trans (also.oids oid).symm
  have sameFailures : failures.Perm otherFailures :=
    (List.perm_ext_iff_of_nodup lists.failuresOnce also.failuresOnce).2 fun f =>
      (lists.failures f).trans (also.failures f).symm
  simp [sameOids.length_eq, sameFailures.length_eq]

/-- Split at its line feeds, a text is the lines of all metrics and nothing else: with the line
feed that ended it, each line is read as the help, the type or the sample that it stands for, its
labels unescaped. There is a sample for each OID and each failure that the run has counted, with
the value of its counter. -/
def Exposes (us : List Update) (text : String) : Prop :=
  ∃ oids failures, Lists us oids failures ∧ ∃ pieces, text.toList.splitOn '\n' = pieces ++ [[]] ∧
    List.Forall₂ (fun piece line => line? (piece ++ ['\n']) = some (line, [])) pieces
      ((after us).series oids failures)

def Counted (us : List Update) (oid : String) : Prop :=
  .move (.decoded oid) ∈ us ∨ ∃ kind, .move (.errors oid kind) ∈ us

theorem forall_counted_iff {us : List Update} {p : String → Prop} :
    (∀ oid, Counted us oid → p oid) ↔
    (∀ oid ∈ (after us).decodedByOid.keys, p oid) ∧ ∀ f ∈ (after us).failures.keys, p f.oid := by
  have lists := lists_keys us
  simp only [lists.oids, lists.failures]
  constructor
  · intro every
    exact ⟨fun oid counted => every oid (.inl counted), fun f counted =>
      every f.oid (.inr ⟨f.kind, counted⟩)⟩
  · rintro ⟨decoded, failed⟩ oid (counted | ⟨kind, counted⟩)
    · exact decoded oid counted
    · exact failed ⟨oid, kind⟩ counted

theorem Exposes.whole {us : List Update} (exposes : Exposes us (after us).render) :
    ∀ oid, Counted us oid → '\n' ∉ oid.toList := by
  obtain ⟨oids, failures, lists, pieces, split, read⟩ := exposes
  have written : (after us).ownSeries.length = pieces.length := by
    rw [read.length_eq]
    exact (lists_keys us).length_series_eq lists (after us)
  have whole :=
    (Exposition.length_splitOn_terminated_iff ((after us).ownSeries.map (·.text.toList))).1 (by
    rw [← render_toList, split, List.length_append, List.length_map, written]
    rfl)
  exact forall_counted_iff.2 (series_whole_iff.1 whole)

theorem exposes_of_whole {us : List Update} (free : ∀ oid, Counted us oid → '\n' ∉ oid.toList) :
    Exposes us (after us).render := by
  refine ⟨_, _, lists_keys us, (after us).ownSeries.map (·.text.toList), ?_, ?_⟩
  · rw [render_toList]
    exact Exposition.splitOn_terminated (series_whole_iff.2 (forall_counted_iff.1 free))
  · rw [List.forall₂_map_left_iff]
    change List.Forall₂ _ (after us).ownSeries (after us).ownSeries
    rw [List.forall₂_same]
    exact fun line there => Exposition.line?_written (series_valid line there) []

/-- The text of the counters is an exposition of them, for all runs of updates whose OIDs hold no
line feed, and for no others. All other characters may stand in an OID, those that the format
escapes included. -/
theorem render_exposes_iff (us : List Update) :
    Exposes us (after us).render ↔ ∀ oid, Counted us oid → '\n' ∉ oid.toList :=
  ⟨Exposes.whole, exposes_of_whole⟩

/-- A line feed in an OID breaks the line of its sample. -/
theorem lineFeed_not_exposed :
    ¬ Exposes [.move (.decoded "a\nb")] (after [.move (.decoded "a\nb")]).render := by
  intro exposes
  exact exposes.whole "a\nb" (.inl List.mem_cons_self) (by decide)

end Ldap.Metrics
