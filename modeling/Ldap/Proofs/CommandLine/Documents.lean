import Ldap.Proofs.CommandLine.Printing
import Ldap.Proofs.Registry.Counters
import Mathlib.Data.UInt

/-! The command for JSON documents. The items of an array are decoded one after the other by one
registry; what is printed for each is what is printed for it as a document of its own, and the
counters add up. -/
namespace Ldap

namespace Registry
open Metrics (Counter)

@[simp] theorem decodeJson_array (p : Strictness) (vs : List Json) (r : Registry) :
    r.decodeJson p (.array vs) = (.error (.typeMismatch "control" .object), r) := rfl

theorem decodeJson_fst_congr {r later : Registry} (same : later.decoders = r.decoders)
    (p : Strictness) (v : Json) :
    (later.decodeJson p v).1 = (r.decodeJson p v).1 := by
  simp only [decodeJson_fst, decoder?, same]

theorem counter?_congr {r later : Registry} (same : later.decoders = r.decoders) (p : Strictness)
    (v : Json) :
    (Attempt.mk later (.object p v)).counter? = (Attempt.mk r (.object p v)).counter? := by
  have results : (Attempt.mk later (.object p v)).result = (Attempt.mk r (.object p v)).result :=
    decodeJson_fst_congr same p v
  simp only [Attempt.counter?, results, Attempt.oid?, isRegistered, same]

def decodeObjects (p : Strictness) (vs : List Json) (r : Registry) : Registry :=
  vs.foldl (fun r v => (r.decodeJson p v).2) r

@[simp] theorem decodeObjects_cons (p : Strictness) (v : Json) (vs : List Json) (r : Registry) :
    r.decodeObjects p (v :: vs) = (r.decodeJson p v).2.decodeObjects p vs := rfl

@[simp] theorem decodeObjects_decoders (p : Strictness) (vs : List Json) (r : Registry) :
    (r.decodeObjects p vs).decoders = r.decoders := by
  induction vs generalizing r with
  | nil => rfl
  | cons v vs ih => simp [ih]

theorem decodeObjects_registrations (p : Strictness) (vs : List Json) (r : Registry) :
    (r.decodeObjects p vs).metrics.registrations = r.metrics.registrations ∧
      (r.decodeObjects p vs).metrics.overrides = r.metrics.overrides := by
  induction vs generalizing r with
  | nil => exact ⟨rfl, rfl⟩
  | cons v vs ih =>
    obtain ⟨-, registrations, overrides⟩ := (Attempt.mk r (.object p v)).keeps_registrations
    rw [decodeObjects_cons]
    exact ⟨(ih _).1.trans registrations, (ih _).2.trans overrides⟩

/-- What an object adds to a counter when it is decoded alone. -/
def added (p : Strictness) (counter : Counter) (r : Registry) (v : Json) : UInt64 :=
  (r.decodeJson p v).2.metrics.count counter - r.metrics.count counter

theorem count_decodeJson (p : Strictness) (counter : Counter) (r : Registry) (v : Json) :
    (r.decodeJson p v).2.metrics.count counter = r.metrics.count counter + r.added p counter v := by
  rw [added, UInt64.add_comm, UInt64.sub_add_cancel]

theorem added_congr {r later : Registry} (same : later.decoders = r.decoders) (p : Strictness)
    (counter : Counter) :
    later.added p counter = r.added p counter := by
  have counted (s : Registry) (v : Json) : s.added p counter v =
      if (Attempt.mk s (.object p v)).counter? = some counter then 1 else 0 := by
    have after : (s.decodeJson p v).2.metrics.count counter = _ :=
      (Attempt.mk s (.object p v)).count_after counter
    rw [added, after, UInt64.add_comm, UInt64.add_sub_cancel]
  funext v
  rw [counted, counted, counter?_congr same]

theorem count_decodeObjects (p : Strictness) (counter : Counter) (vs : List Json) (r : Registry) :
    (r.decodeObjects p vs).metrics.count counter = r.metrics.count counter +
      (vs.map (r.added p counter)).sum := by
  induction vs generalizing r with
  | nil => exact (UInt64.add_zero _).symm
  | cons v vs ih =>
    rw [decodeObjects_cons, ih, added_congr (decodeJson_decoders p v r), count_decodeJson,
      UInt64.add_assoc, List.map_cons, List.sum_cons]

end Registry

namespace CommandLine
open Json Registry

def printDocument (p : Strictness) (v : Json) (r : Registry) : Printed := printItems p 0 (items v) r

section
variable {p : Strictness} {r : Registry} {v : Json} {vs : List Json} {d : Decoded}
  {ds : List Decoded} {e : DecodeError}

theorem printItems_append (decoded : List.Forall₂ (fun v d => (r.decodeJson p v).1 = .ok d) vs ds)
    (index : Nat) (more : List Json) :
    printItems p index (vs ++ more) r =
      (.join (ds.map Decoded.report) ++
        (printItems p (index + vs.length) more (r.decodeObjects p vs)).1,
        (printItems p (index + vs.length) more (r.decodeObjects p vs)).2) := by
  induction vs generalizing r ds index with
  | nil =>
    cases decoded
    rw [List.map_nil, String.join_nil, String.empty_append]
    rfl
  | cons v vs ih =>
    cases decoded with
    | @cons _ d _ ds first rest =>
      have rest : List.Forall₂ (fun w d => ((r.decodeJson p v).2.decodeJson p w).1 =
          .ok d) vs ds := by
        simpa only [decodeJson_fst_congr (decodeJson_decoders p v r)] using rest
      have position : index + 1 + vs.length = index + (v :: vs).length := by
        rw [List.length_cons]
        omega
      rw [List.cons_append, printItems_cons_of_ok first, ih rest, position, ← decodeObjects_cons,
        List.map_cons, String.join_cons, String.append_assoc]

theorem printItems_of_decoded
    (decoded : List.Forall₂ (fun v d => (r.decodeJson p v).1 = .ok d) vs ds) (index : Nat) :
    printItems p index vs r = (.join (ds.map Decoded.report), .ok (r.decodeObjects p vs)) := by
  have whole := printItems_append decoded index []
  rwa [List.append_nil, printItems, String.append_empty] at whole

theorem printItems_of_fault (decoded : List.Forall₂ (fun v d => (r.decodeJson p v).1 = .ok d) vs ds)
    (fault : (r.decodeJson p v).1 = .error e) (index : Nat) (more : List Json) :
    printItems p index (vs ++ v :: more) r =
      (.join (ds.map Decoded.report), .error (.undecodableItem (index + vs.length) e)) := by
  have fault : ((r.decodeObjects p vs).decodeJson p v).1 = .error e := by
    rw [decodeJson_fst_congr (decodeObjects_decoders p vs r), fault]
  rw [printItems_append decoded, printItems_cons_of_error fault, String.append_empty]

theorem printDocument_eq (single : ∀ vs, v ≠ .array vs) :
    printDocument p v r = printDocument p (.array [v]) r := by
  cases v with
  | array vs => exact absurd rfl (single vs)
  | _ => rfl

theorem printDocument_of_decoded (decoded : (r.decodeJson p v).1 = .ok d) :
    printDocument p v r = (d.report, .ok (r.decodeJson p v).2) := by
  have single (vs : List Json) : v ≠ .array vs := by
    rintro rfl
    rw [decodeJson_array] at decoded
    cases decoded
  rw [printDocument_eq single]
  change printItems p 0 [v] r = _
  rw [printItems_of_decoded (.cons decoded .nil), List.map_singleton, String.join_cons,
    String.join_nil, String.append_empty]
  rfl

theorem map_report (decoded : List.Forall₂ (fun v d => (r.decodeJson p v).1 = .ok d) vs ds) :
    ds.map Decoded.report = vs.map fun v => (printDocument p v r).1 := by
  induction decoded with
  | nil => rfl
  | cons first _ ih => rw [List.map_cons, List.map_cons, ih, printDocument_of_decoded first]

end

structure Asks (a : Arguments) (inputs : Inputs) (settings : Settings) (v : Json) : Prop where
  settings : readSettings inputs a.options.settings = .ok settings
  document : ∃ file s, a.command = .json file ∧ read inputs file = some s ∧ ofText? s = some v

theorem Asks.run_eq {a : Arguments} {inputs : Inputs} {settings : Settings} {v : Json}
    (h : Asks a inputs settings v) : run a inputs = printMetrics a.options.metrics
      (printDocument (settings.strictness.join a.options.strictness) v
        (initialRegistry settings)) := by
  obtain ⟨file, s, command, given, document⟩ := h.document
  simp only [run, h.settings, runCommand, command, given, printJson, document, printDocument]

/-- The command prints a document item by item. A document that is no array is printed as the
array of it alone. If every item is decoded, what is printed are the reports on them in order,
each the one that the item by itself is printed as, and then the counters, if these are wanted:
what each item adds to them by itself is added up. If an item is not decoded, and the items before
it are, then these are printed and nothing else, no counters either, and the failure names the
index of the item. Arrays are not decoded as items. What an item is decoded to does not depend on
the items before it. The program does with the document that its arguments ask for what the
command does under the settings. -/
theorem documents_printed_item_by_item :
    (∀ (p : Strictness) (wanted : Bool) (r : Registry),
      (∀ v, (∀ vs, v ≠ .array vs) → printDocument p v r = printDocument p (.array [v]) r) ∧
      (∀ v d, (r.decodeJson p v).1 = .ok d →
        printDocument p v r = (d.report, .ok (r.decodeJson p v).2)) ∧
      (∀ vs, (∀ v ∈ vs, ∃ d, (r.decodeJson p v).1 = .ok d) →
        printMetrics wanted (printDocument p (.array vs) r) =
          (.join (vs.map fun v => (printDocument p v r).1) ++
          (if wanted then (r.decodeObjects p vs).metrics.render else ""), none)) ∧
      (∀ vs, (r.decodeObjects p vs).metrics.registrations = r.metrics.registrations ∧
        (r.decodeObjects p vs).metrics.overrides = r.metrics.overrides ∧
        ∀ counter, (r.decodeObjects p vs).metrics.count counter = r.metrics.count counter +
          (vs.map fun v =>
          (r.decodeJson p v).2.metrics.count counter - r.metrics.count counter).sum) ∧
      (∀ vs i e, FirstFault (fun v => (r.decodeJson p v).1) vs i e →
        printMetrics wanted (printDocument p (.array vs) r) =
          (.join ((vs.take i).map fun v => (printDocument p v r).1), some (.undecodableItem i e)) ∧
        (Failure.undecodableItem i e).messages =
          [s!"Control #{i} could not be decoded", e.message]) ∧
      (∀ vs, ∃ e, (r.decodeJson p (.array vs)).1 = .error e) ∧
      ∀ before v, ((r.decodeObjects p before).decodeJson p v).1 = (r.decodeJson p v).1) ∧
    ∀ a inputs settings v, Asks a inputs settings v → run a inputs = printMetrics a.options.metrics
      (printDocument (settings.strictness.join a.options.strictness) v
        (initialRegistry settings)) := by
  refine ⟨fun p wanted r => ⟨fun v => printDocument_eq, fun v d => printDocument_of_decoded,
    fun vs all => ?_, fun vs => ?_, fun vs i e fault => ⟨?_, rfl⟩, fun vs => ⟨_, rfl⟩,
    fun before v => ?_⟩,
    fun a inputs settings v => Asks.run_eq⟩
  · obtain ⟨ds, decoded⟩ := exists_mapM_ok_iff.2 all
    have decoded := mapM_ok_iff.1 decoded
    have printed : printDocument p (.array vs) r = _ := printItems_of_decoded decoded 0
    rw [printed, map_report decoded]
    cases wanted
    · simp [printMetrics]
    · rfl
  · obtain ⟨registrations, overrides⟩ := decodeObjects_registrations p vs r
    exact ⟨registrations, overrides, fun counter => count_decodeObjects p counter vs r⟩
  · obtain ⟨before, v, after, rfl, rfl, clear, fault⟩ := fault.exists_append
    obtain ⟨ds, decoded⟩ := exists_mapM_ok_iff.2 clear
    have decoded := mapM_ok_iff.1 decoded
    have printed : printDocument p (.array (before ++ v :: after)) r = _ :=
      printItems_of_fault decoded fault 0 after
    rw [printed, map_report decoded, List.take_left, Nat.zero_add]
    rfl
  · exact decodeJson_fst_congr (decodeObjects_decoders p before r) p v

def bundle : List Decoded :=
  [.passedThrough ⟨"1.2", true, none⟩, .typed (.request (.standard .sync))]

def bundled : List Json := bundle.map fun d => d.control.toJson

theorem bundled_asked (items : List Json) (plain : ∀ v ∈ items, Plain 3 v) :
    Asks ⟨{ metrics := true }, .json "-"⟩ ⟨some (Json.array items).toPretty, fun _ =>
      none⟩ {} (.array items) where
  settings := rfl
  document := ⟨"-", _, rfl, rfl, ofText?_toPretty (.array plain) (by decide)⟩

theorem bundle_printed :
    run ⟨{ metrics := true }, .json "-"⟩ ⟨some (Json.array bundled).toPretty, fun _ => none⟩ =
      (.join (bundle.map Decoded.report) ++
        (standard.decodeObjects .lenient bundled).metrics.render, none) ∧
    (standard.decodeObjects .lenient bundled).metrics.passedThrough = 1 ∧
    (standard.decodeObjects .lenient bundled).metrics.decoded SyncRequest.oid = 1 ∧
    run ⟨{ metrics := true }, .json "-"⟩ ⟨some (Json.array (bundled ++ [.array []])).toPretty,
      fun _ => none⟩ =
      (.join (bundle.map Decoded.report),
        some (.undecodableItem 2 (.typeMismatch "control" .object))) := by
  obtain ⟨command, program⟩ := documents_printed_item_by_item
  obtain ⟨-, alone, whole, counts, first, -⟩ := command .lenient true standard
  have plain : ∀ v ∈ bundled, Plain 3 v := by
    rw [bundled, List.forall_mem_map]
    exact fun d _ => d.control.toJson_plain
  have decoded : ∀ d ∈ bundle, (standard.decodeJson .lenient d.control.toJson).1 = .ok d := by
    decide +kernel
  have reports : (bundled.map fun v => (printDocument .lenient v standard).1) =
      bundle.map Decoded.report := by
    rw [bundled, List.map_map]
    exact List.map_congr_left fun d member => by rw [Function.comp_apply,
      alone _ _ (decoded d member)]
  have all : ∀ v ∈ bundled, ∃ d, (standard.decodeJson .lenient v).1 = .ok d := by
    rw [bundled, List.forall_mem_map]
    exact fun d member => ⟨d, decoded d member⟩
  obtain ⟨-, -, counts⟩ := counts bundled
  refine ⟨?_, (counts .passedThrough).trans (by decide +kernel),
    (counts (.decoded SyncRequest.oid)).trans (by decide +kernel), ?_⟩
  · rw [← reports]
    exact (program _ _ _ _ (bundled_asked bundled plain)).trans (whole bundled all)
  · have fault : FirstFault (fun v => (standard.decodeJson .lenient v).1) (bundled ++ [.array []]) 2
        (.typeMismatch "control" .object) := ⟨all, .array [], rfl, rfl⟩
    have asked := bundled_asked (bundled ++ [.array []]) (List.forall_mem_append.2
      ⟨plain, List.forall_mem_singleton.2 (.array (List.forall_mem_nil _))⟩)
    rw [← reports]
    exact (program _ _ _ _ asked).trans (first _ 2 _ fault).1

end CommandLine
end Ldap
