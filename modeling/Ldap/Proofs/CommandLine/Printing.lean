import Ldap.CommandLine.Run
import Ldap.Proofs.Registry.Objects

/-! What the commands print. It is a series of reports on controls that the registry decodes to,
and the object in each of them is a document for which the same report is printed. -/
namespace Ldap.CommandLine
open Json Registry

theorem onlyKinds_initialRegistry (settings : Settings) : (initialRegistry settings).OnlyKinds := by
  unfold initialRegistry
  split
  · exact OnlyKinds.standard
  · exact OnlyKinds.empty

section
variable {p : Strictness} {r : Registry} {v : Json} {d : Decoded} {e : DecodeError}

theorem printItems_cons_of_ok (first : (r.decodeJson p v).1 = .ok d) (index : Nat)
    (vs : List Json) :
    printItems p index (v :: vs) r =
      (d.report ++ (printItems p (index + 1) vs (r.decodeJson p v).2).1,
        (printItems p (index + 1) vs (r.decodeJson p v).2).2) := by
  rw [printItems]
  generalize r.decodeJson p v = step at first
  obtain ⟨result, next⟩ := step
  cases first
  rfl

theorem printItems_cons_of_error (first : (r.decodeJson p v).1 = .error e) (index : Nat)
    (vs : List Json) :
    printItems p index (v :: vs) r = ("", .error (.undecodableItem index e)) := by
  rw [printItems]
  generalize r.decodeJson p v = step at first
  obtain ⟨result, next⟩ := step
  cases first
  rfl

end

def Reports (r : Registry) (printed : String) : Prop :=
  ∃ ds : List Decoded, printed = .join (ds.map Decoded.report) ∧ ∀ d ∈ ds, r.Yields d

theorem Reports.nothing (r : Registry) : Reports r "" := ⟨[], by simp, by simp⟩

theorem Reports.cons {r : Registry} {d : Decoded} {printed : String} (first : r.Yields d)
    (rest : Reports r printed) :
    Reports r (d.report ++ printed) := by
  obtain ⟨ds, rfl, all⟩ := rest
  exact ⟨d :: ds, by rw [List.map_cons, String.join_cons], List.forall_mem_cons.2 ⟨first, all⟩⟩

theorem Reports.congr {r later : Registry} {printed : String} (h : Reports r printed)
    (same : later.decoders = r.decoders) : Reports later printed := by
  obtain ⟨ds, text, all⟩ := h
  exact ⟨ds, text, fun d member => (all d member).congr same⟩

theorem reports_printItems (p : Strictness) (index : Nat) (vs : List Json) {r : Registry}
    (kinds : r.OnlyKinds) :
    Reports r (printItems p index vs r).1 := by
  -- Index and registry change from item to item; its decoders stay, and with them what it decodes
  -- to.
  induction vs generalizing index r with
  | nil => exact .nothing r
  | cons v vs ih =>
    have same := decodeJson_decoders p v r
    cases first : (r.decodeJson p v).1 with
    | error e =>
      rw [printItems_cons_of_error first]
      exact .nothing r
    | ok d =>
      rw [printItems_cons_of_ok first]
      have rest := (ih (index + 1) (kinds.congr same)).congr same.symm
      exact .cons (yields_of_decodeJson kinds first) rest

theorem reports_printJson (p : Strictness) (s : String) {r : Registry} (kinds : r.OnlyKinds) :
    Reports r (printJson p s r).1 := by
  unfold printJson
  split
  · exact reports_printItems p 0 _ kinds
  · exact .nothing r

theorem envelopes_named {s : Octets} {cs : List Envelope} (h : envelopes s = .ok cs) :
    ∀ c ∈ cs, c.oid ≠ "" := by
  unfold envelopes at h
  split at h
  · cases h
  · split at h
    · split at h
      · rename_i read
        cases h
        exact (Envelope.listOfBer_ok read).1
      · cases h
    · split at h
      · rename_i read
        cases h
        simpa using Envelope.ofBer_named read
      · cases h

theorem reports_printEnvelopes {cs : List Envelope} (named : ∀ c ∈ cs, c.oid ≠ "") {r : Registry}
    (kinds : r.OnlyKinds) : Reports r (printEnvelopes cs r).1 := by
  have all := decodeAll_fst cs r
  unfold printEnvelopes
  split
  · rename_i ds next decoded
    rw [decoded] at all
    refine ⟨ds, rfl, fun d member => ?_⟩
    obtain ⟨c, there, read⟩ := exists_of_mem_mapM all.symm member
    exact yields_of_decode kinds (named c there) read
  · exact .nothing r

theorem reports_printBer (hex : String) {r : Registry} (kinds : r.OnlyKinds) :
    Reports r (printBer hex r).1 := by
  unfold printBer
  split
  · rename_i cs read
    obtain ⟨s, _, found⟩ := bind_ok_iff.1 read
    exact reports_printEnvelopes (envelopes_named found) kinds
  · exact .nothing r

theorem reports_runCommand (settings : Settings) (a : Arguments) (inputs : Inputs) :
    Reports (initialRegistry settings) (runCommand settings a inputs).1 := by
  have kinds := onlyKinds_initialRegistry settings
  unfold runCommand
  split
  · split
    · exact reports_printJson _ _ kinds
    · exact .nothing _
  · exact reports_printBer _ kinds

theorem printJson_report {r : Registry} {d : Decoded} (h : r.Yields d) (q : Strictness) :
    ∃ after, printJson q d.control.toJson.toPretty r = (d.report, .ok after) := by
  have text : ofText? d.control.toJson.toPretty = some d.control.toJson :=
    ofText?_toPretty d.control.toJson_plain (by decide)
  have one : items d.control.toJson = [d.control.toJson] := rfl
  have decoded := h.decodeJson_toJson q
  rw [printJson, text]
  dsimp only
  rw [one, printItems_cons_of_ok decoded]
  exact ⟨_, by rw [printItems, String.append_empty]⟩

theorem runCommand_report {settings : Settings} {d : Decoded}
    (h : (initialRegistry settings).Yields d) {a : Arguments} {inputs : Inputs} {file : String}
    (asked : a.command = .json file) (given : read inputs file = some d.control.toJson.toPretty) :
    ∃ after, runCommand settings a inputs = (d.report, .ok after) := by
  obtain ⟨after, printed⟩ := printJson_report h (settings.strictness.join a.options.strictness)
  exact ⟨after, by simp only [runCommand, asked, given, printed]⟩

/-- The JSON object of a decoded control is decoded to that control under every strictness, by
every registry with the same decoders. So is each object that a command prints: given to the
program by itself, in a file or at the standard input, with whatever flags and settings that leave
the decoders as they were, it is printed once more. -/
theorem printed_json_is_fixed_point :
    (∀ r : Registry, r.OnlyKinds → ∀ d : Decoded,
      ((∃ c, c.oid ≠ "" ∧ (r.decode c).1 = .ok d) ∨ ∃ p v, (r.decodeJson p v).1 = .ok d) →
      ∀ later : Registry, later.decoders = r.decoders →
        ∀ q, (later.decodeJson q d.control.toJson).1 = .ok d) ∧
    ∀ settings a inputs, ∃ ds : List Decoded,
      (runCommand settings a inputs).1 = .join (ds.map Decoded.report) ∧
      ∀ d ∈ ds, ∀ later b given file, later.registerDefaults = settings.registerDefaults →
        b.command = .json file → read given file = some d.control.toJson.toPretty →
        ∃ after, runCommand later b given = (d.report, .ok after) := by
  refine ⟨fun r kinds d decoded later same q => ?_, fun settings a inputs => ?_⟩
  · have yields : r.Yields d := by
      rcases decoded with ⟨c, named, read⟩ | ⟨p, v, read⟩
      · exact yields_of_decode kinds named read
      · exact yields_of_decodeJson kinds read
    exact (yields.congr same).decodeJson_toJson q
  · obtain ⟨ds, text, all⟩ := reports_runCommand settings a inputs
    refine ⟨ds, text, fun d member later b given file same asked there => ?_⟩
    have again : initialRegistry later = initialRegistry settings := by
      rw [initialRegistry, same, initialRegistry]
    exact runCommand_report (by rw [again]; exact all d member) asked there

def sloppy : Json :=
  .object [("comment", .null),
    ("value-json", .object [("cookie", .string " AAE=\n"), ("mode", .string "refresh-only"),
      ("size", .array [])]), ("criticality", .bool true), ("oid", .string SyncRequest.oid)]

theorem sloppy_sync_settles :
    let d : Decoded := .typed (.request ⟨true, .sync ⟨.refreshOnly, some [0, 1], false⟩⟩)
    (standard.decodeJson .lenient sloppy).1 = .ok d ∧
      (standard.decodeJson ⟨true, true⟩ d.control.toJson).1 = .ok d := by
  intro d
  have decoded : (standard.decodeJson .lenient sloppy).1 = .ok d := by decide +kernel
  have fixed := printed_json_is_fixed_point.1 standard OnlyKinds.standard d (.inr ⟨_, _, decoded⟩)
  exact ⟨decoded, fixed standard rfl ⟨true, true⟩⟩

end Ldap.CommandLine
