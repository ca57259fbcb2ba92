import Ldap.Proofs.CommandLine.Printing
import Ldap.Proofs.Registry.Messages
import Ldap.Proofs.Text.Hex

/-! The command for encoded controls. It prints all controls or none, and blanks and the case of
letters in what it is given do not count. -/
namespace Ldap.CommandLine
open Registry

def digits (text : String) : List Char := (text.toList.filter (!isAsciiBlank ·)).map Octets.lowerHex

/-- Texts that differ in blanks, which may stand anywhere, and in the case of hexadecimal letters
only. -/
def SameDigits (s t : String) : Prop := digits s = digits t

instance (s t : String) : Decidable (SameDigits s t) :=
  inferInstanceAs (Decidable (digits s = digits t))

theorem ofSpelling_eq (text : String) :
    ofSpelling text = (Octets.ofHex (.ofList (digits text))).mapError .notHex := by
  rw [ofSpelling, digits, Octets.ofHex_lowerHex]
  cases Octets.ofHex (.ofList (text.toList.filter (!isAsciiBlank ·))) <;> rfl

theorem digits_hex (s : Octets) : digits s.hex = s.hex.toList := by
  have all : ∀ n < 16, isAsciiBlank (Nat.digitChar n) = false ∧
      Octets.lowerHex (Nat.digitChar n) = Nat.digitChar n := by
    decide
  have each : ∀ c ∈ s.hex.toList, isAsciiBlank c = false ∧ Octets.lowerHex c = c := by
    rw [Octets.hex, String.toList_ofList]
    intro c member
    obtain ⟨b, -, digit⟩ := List.mem_flatMap.1 member
    have := b.toNat_lt
    simp only [Text.hexPair, List.mem_cons, List.not_mem_nil, or_false] at digit
    rcases digit with rfl | rfl
    · exact all _ (by omega)
    · exact all _ (by omega)
  have clear : s.hex.toList.filter (!isAsciiBlank ·) = s.hex.toList :=
    List.filter_eq_self.2 fun c member => by rw [(each c member).1, Bool.not_false]
  rw [digits, clear, List.map_congr_left fun c member => (each c member).2, List.map_id']

theorem ofSpelling_ok_iff {text : String} {s : Octets} :
    ofSpelling text = .ok s ↔ SameDigits text s.hex := by
  have read : ofSpelling text = .ok s ↔
      Octets.ofHex (.ofList (text.toList.filter (!isAsciiBlank ·))) = .ok s := by
    unfold ofSpelling
    split <;> simp_all
  rw [read, Octets.ofHex_ok_iff, String.toList_ofList, SameDigits, digits_hex]
  rfl

theorem SameDigits.ofSpelling_eq {s t : String} (same : SameDigits s t) :
    ofSpelling s = ofSpelling t := by
  rw [CommandLine.ofSpelling_eq, CommandLine.ofSpelling_eq, same]

theorem envelopes_listToBer {cs : List Envelope} (named : ∀ c ∈ cs, c.oid ≠ "")
    (small : Envelope.contentLength cs < 2 ^ 32) : envelopes (Envelope.listToBer cs) = .ok cs := by
  have read : Envelope.listOfBer (Envelope.listToBer cs) = .ok cs :=
    (Envelope.listOfBer_listToBer_iff (by omega)).2 ⟨rfl, named, small⟩
  have front : Envelope.listToBer cs = Envelope.listTag :: (Envelope.listToBer cs).tail := rfl
  rw [front, envelopes, if_pos rfl, ← front, read]

theorem envelopes_toBer {c : Envelope} (named : c.oid ≠ "")
    (small : c.toElement.content.length < 2 ^ 32) :
    envelopes c.toBer = .ok [c] := by
  have read : Envelope.ofBer c.toBer = .ok c :=
    (Envelope.ofBer_toBer_iff (by omega)).2 ⟨rfl, named, small⟩
  have front : c.toBer = Ber.Tag.sequence :: c.toBer.tail := rfl
  rw [front, envelopes, if_neg (by decide), ← front, read]

theorem printBer_of_envelopes {text : String} {s : Octets} {cs : List Envelope}
    (spelled : SameDigits text s.hex) (found : envelopes s = .ok cs) (r : Registry) :
    printBer text r = printEnvelopes cs r := by
  simp [printBer, ofSpelling_ok_iff.2 spelled, found]

section
variable {r : Registry} {cs : List Envelope}

theorem printEnvelopes_of_decoded {ds : List Decoded}
    (decoded : List.Forall₂ (fun c d => (r.decode c).1 = .ok d) cs ds) :
    printEnvelopes cs r =
      (.join (ds.map fun d => d.control.display ++ "\n" ++ d.control.toJson.toPretty ++ "\n"),
        .ok (r.decodeEach cs)) := by
  rw [← mapM_ok_iff, ← decodeAll_fst] at decoded
  rw [printEnvelopes, decodeAll_of_ok decoded, ← Decoded.join_report]

theorem printEnvelopes_of_firstFault {i : Nat} {e : DecodeError}
    (fault : FirstFault (fun c => (r.decode c).1) cs i e) :
    printEnvelopes cs r = ("", .error (.undecodable e)) := by
  rw [printEnvelopes, decodeAll_of_firstFault fault]

end

/-- Texts that the command cannot tell apart: it prints the same for them, fails alike and counts
the same. -/
structure Interchangeable (s t : String) : Prop where
  command : ∀ r, printBer s r = printBer t r
  program : ∀ options inputs, run ⟨options, .ber s⟩ inputs = run ⟨options, .ber t⟩ inputs

theorem Interchangeable.of_command {s t : String} (command : ∀ r, printBer s r = printBer t r) :
    Interchangeable s t where
  command := command
  program options inputs := by simp only [run, runCommand, command]

theorem SameDigits.interchangeable {s t : String} (same : SameDigits s t) : Interchangeable s t :=
  .of_command fun r => by rw [printBer, printBer, same.ofSpelling_eq]

/-- A list of controls with OIDs, spelled in hexadecimal with whatever blanks and case of letters,
is printed whole or not at all: if each control can be decoded, what is printed is for each of
them in order the line for the reader and then its JSON object, and the registry is left as it is
by decoding them one by one; if one cannot be decoded, nothing is printed and the failure is that
of the first. A control by itself does the same as the list of this one control. Any two texts,
spellings of octets or not, that differ in blanks and in the case of hexadecimal letters only, are
the same to the command and to the program. -/
theorem encoded_controls_printed_all_or_none {cs : List Envelope} (named : ∀ c ∈ cs, c.oid ≠ "")
    (small : Envelope.contentLength cs < 2 ^ 32) {text : String}
    (spelled : SameDigits text (Envelope.listToBer cs).hex) :
    (∀ r : Registry, (∀ c ∈ cs, ∃ d, (r.decode c).1 = .ok d) →
      ∃ ds, List.Forall₂ (fun c d => (r.decode c).1 = .ok d) cs ds ∧
        printBer text r =
          (.join (ds.map fun d =>
            d.control.display ++ "\n" ++ d.control.toJson.toPretty ++ "\n"),
            .ok (r.decodeEach cs))) ∧
    (∀ r : Registry, (∃ c ∈ cs, ∃ e, (r.decode c).1 = .error e) →
      ∃ i e, FirstFault (fun c => (r.decode c).1) cs i e ∧
        printBer text r = ("", .error (.undecodable e))) ∧
    (∀ c single, cs = [c] → SameDigits single c.toBer.hex → Interchangeable single text) ∧
    ∀ s t, SameDigits s t → Interchangeable s t := by
  have printed (r : Registry) : printBer text r = printEnvelopes cs r :=
    printBer_of_envelopes spelled (envelopes_listToBer named small) r
  refine ⟨fun r all => ?_, fun r failing => ?_, ?_, fun s t same => same.interchangeable⟩
  · obtain ⟨ds, decoded⟩ := exists_mapM_ok_iff.2 all
    have each := mapM_ok_iff.1 decoded
    exact ⟨ds, each, by rw [printed, printEnvelopes_of_decoded each]⟩
  · obtain ⟨i, e, first⟩ := exists_firstFault failing
    exact ⟨i, e, first, by rw [printed, printEnvelopes_of_firstFault first]⟩
  · rintro c single rfl alone
    have content_le : c.toElement.content.length ≤ c.toBer.length :=
      Ber.Element.content_le_toBer c.toElement
    have whole : Envelope.contentLength [c] = c.toBer.length := Nat.add_zero _
    have found : envelopes c.toBer = .ok [c] :=
      envelopes_toBer (named c List.mem_cons_self) (by omega)
    exact .of_command fun r => by rw [printed, printBer_of_envelopes alone found]

def spaced : Envelope := ⟨"1.2", true, some [0xAB]⟩

def spacedText : String := "a 00D 30 0b\n04 03 312e32\t0101Ff 04 01 A b"

/-- The list is printed, and so is its control by itself; where it is followed by a
synchronization request without a value, nothing is printed. Half an octet is refused alike in all
spellings. -/
theorem spaced_printed :
    printBer spacedText standard =
      ("Control(oid=1.2, isCritical=true, value=ab)\n\x7b\n  \"oid\": \"1.2\",\n" ++
        "  \"control-name\": \"1.2\",\n  \"criticality\": true,\n" ++
        "  \"value-base64\": \"qw==\"\n\x7d\n",
        .ok (standard.decodeEach [spaced])) ∧
    Interchangeable "30 0B 04 03 31 2E 32 01 01 fF 0401a\rB" spacedText ∧
    printBer (Envelope.listToBer [spaced, ⟨SyncRequest.oid, true, none⟩]).hex standard =
      ("", .error (.undecodable (.missingValue SyncRequest.oid))) ∧
    Interchangeable "A0 0" "a00\n" := by
  have spelled : SameDigits spacedText (Envelope.listToBer [spaced]).hex := by decide +kernel
  have passed : (standard.decodeAll [spaced]).1 = .ok [.passedThrough spaced] := by decide +kernel
  have missing : (standard.decodeAll [spaced, ⟨SyncRequest.oid, true, none⟩]).1 =
      .error (.missingValue SyncRequest.oid) := by decide +kernel
  rw [decodeAll_fst] at passed missing
  obtain ⟨printed, -, alone, alike⟩ :=
    encoded_controls_printed_all_or_none (by decide) (by decide +kernel) spelled
  obtain ⟨-, refused, -⟩ := encoded_controls_printed_all_or_none
    (by decide : ∀ c ∈ [spaced, ⟨SyncRequest.oid, true, none⟩], c.oid ≠ "") (by decide +kernel) rfl
  refine ⟨?_, alone spaced _ rfl (by decide +kernel), ?_, alike _ _ (by decide +kernel)⟩
  · obtain ⟨ds, decoded, text⟩ := printed standard (exists_mapM_ok_iff.1 ⟨_, passed⟩)
    rw [← mapM_ok_iff, passed, Except.ok.injEq] at decoded
    subst decoded
    rw [text]
    refine Prod.ext ?_ rfl
    decide +kernel
  · have fault : (standard.decode ⟨SyncRequest.oid, true, none⟩).1 =
        .error (.missingValue SyncRequest.oid) := by
      decide +kernel
    obtain ⟨i, e, first, text⟩ :=
      refused standard ⟨_, List.mem_cons_of_mem _ List.mem_cons_self, _, fault⟩
    have same := mapM_error_iff.2 ⟨i, first⟩
    rw [missing, Except.error.injEq] at same
    rw [text, same]

end Ldap.CommandLine
