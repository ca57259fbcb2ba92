import Ldap.Proofs.Registry.Decoding

/-! The controls of a message, decoded one after the other. What a list is decoded to is what each
control is decoded to alone; the registry goes through the states that it would go through alone,
up to the first control that fails. -/
namespace Ldap.Registry
variable {r : Registry} {c : Envelope} {cs : List Envelope} {d : Decoded} {ds : List Decoded}
  {e : DecodeError}

def decodeEach (cs : List Envelope) (r : Registry) : Registry :=
  cs.foldl (fun r c => (r.decode c).2) r

@[simp] theorem decodeEach_cons (c : Envelope) (cs : List Envelope) (r : Registry) :
    r.decodeEach (c :: cs) = (r.decode c).2.decodeEach cs := rfl

@[simp] theorem decodeEach_append (cs more : List Envelope) (r : Registry) :
    r.decodeEach (cs ++ more) = (r.decodeEach cs).decodeEach more := List.foldl_append

@[simp] theorem decodeEach_decoders (cs : List Envelope) (r : Registry) :
    (r.decodeEach cs).decoders = r.decoders := by
  induction cs generalizing r with
  | nil => rfl
  | cons c cs ih => simp [ih]

theorem decodeAll_append_of_ok (decoded : (r.decodeAll cs).1 = .ok ds) (more : List Envelope) :
    r.decodeAll (cs ++ more) =
      ((ds ++ ·) <$> ((r.decodeEach cs).decodeAll more).1,
        ((r.decodeEach cs).decodeAll more).2) := by
  induction cs generalizing r ds with
  | nil =>
    cases decoded
    change r.decodeAll more = (id <$> (r.decodeAll more).1, _)
    rw [id_map]
    rfl
  | cons c cs ih =>
    cases first : (r.decode c).1 with
    | error e =>
      rw [decodeAll_cons_of_error first] at decoded
      cases decoded
    | ok d =>
      rw [decodeAll_cons_of_ok first] at decoded
      obtain ⟨rest, others, rfl⟩ := map_ok_iff.1 decoded
      rw [List.cons_append, decodeAll_cons_of_ok first, ih others, decodeEach_cons]
      congr 1
      rw [← comp_map]
      rfl

theorem decodeAll_append_of_error (failed : (r.decodeAll cs).1 = .error e) (more : List Envelope) :
    r.decodeAll (cs ++ more) = r.decodeAll cs := by
  induction cs generalizing r with
  | nil => cases failed
  | cons c cs ih =>
    rw [List.cons_append]
    cases first : (r.decode c).1 with
    | error e => rw [decodeAll_cons_of_error first, decodeAll_cons_of_error first]
    | ok d =>
      rw [decodeAll_cons_of_ok first] at failed
      rw [decodeAll_cons_of_ok first, decodeAll_cons_of_ok first, ih (map_error_iff.1 failed)]

theorem decodeAll_of_ok (decoded : (r.decodeAll cs).1 = .ok ds) :
    r.decodeAll cs = (.ok ds, r.decodeEach cs) := by
  have whole := decodeAll_append_of_ok decoded []
  rwa [List.append_nil, decodeAll, map_ok, List.append_nil] at whole

theorem decodeAll_of_firstFault {i : Nat} (h : FirstFault (fun c => (r.decode c).1) cs i e) :
    r.decodeAll cs = (.error e, r.decodeEach (cs.take (i + 1))) := by
  obtain ⟨before, c, after, rfl, rfl, clear, fault⟩ := h.exists_append
  obtain ⟨ds, decoded⟩ := exists_mapM_ok_iff.2 clear
  rw [← decodeAll_fst] at decoded
  have fault : ((r.decodeEach before).decode c).1 = .error e := by
    rw [decode_congr (decodeEach_decoders before r), fault]
  have attempted : (before ++ c :: after).take (before.length + 1) = before ++ [c] := by
    rw [List.take_length_add_append, List.take_succ_cons, List.take_zero]
  rw [decodeAll_append_of_ok decoded, decodeAll_cons_of_error fault, attempted, decodeEach_append]
  rfl

/-- A list of controls is decoded if and only if each of them is decoded alone, by the same
registry, and then to the same controls in the same order; otherwise the fault is that of the
first control that fails alone. The registry is left as if the controls had been decoded one by
one, up to the first that fails and no further, and with the decoders that it had. So a list may
be cut anywhere: what follows a part that fails is not attempted, and what follows a part that is
decoded is decoded by the registry which that part has left. -/
theorem lists_stop_at_first_fault (cs more : List Envelope) (r : Registry) :
    (∀ ds, (r.decodeAll cs).1 = .ok ds ↔ List.Forall₂ (fun c d => (r.decode c).1 = .ok d) cs ds) ∧
    (∀ e, (r.decodeAll cs).1 = .error e ↔ ∃ i, FirstFault (fun c => (r.decode c).1) cs i e) ∧
    (∀ ds, (r.decodeAll cs).1 = .ok ds → (r.decodeAll cs).2 = r.decodeEach cs) ∧
    (∀ i e, FirstFault (fun c => (r.decode c).1) cs i e →
      (r.decodeAll cs).2 = r.decodeEach (cs.take (i + 1))) ∧
    (r.decodeAll cs).2.decoders = r.decoders ∧
    (∀ e, (r.decodeAll cs).1 = .error e → r.decodeAll (cs ++ more) = r.decodeAll cs) ∧
    ∀ ds, (r.decodeAll cs).1 = .ok ds → r.decodeAll (cs ++ more) =
      ((ds ++ ·) <$> ((r.decodeAll cs).2.decodeAll more).1,
        ((r.decodeAll cs).2.decodeAll more).2) := by
  refine ⟨fun ds => ?_, fun e => ?_, fun ds decoded => ?_, fun i e fault => ?_,
    decodeAll_decoders cs r, fun e failed => decodeAll_append_of_error failed more,
    fun ds decoded => ?_⟩
  · simp [decodeAll_fst]
  · simp [decodeAll_fst]
  · rw [decodeAll_of_ok decoded]
  · rw [decodeAll_of_firstFault fault]
  · rw [decodeAll_append_of_ok decoded, decodeAll_of_ok decoded]

def refusing : Registry :=
  standard.register "1.2.3" (.ofFunction fun c => .error (.missingValue c.oid))

theorem refusing_stops :
    let cs : List Envelope :=
      [⟨"1.2.4", true, some []⟩, ⟨GetAuthorizationEntry.oid, false, none⟩, ⟨"1.2.3", true, none⟩]
    (refusing.decodeAll cs).1 = .error (.missingValue "1.2.3") ∧
    refusing.decodeAll (cs ++ cs) = refusing.decodeAll cs ∧
    (refusing.decodeAll cs).2.metrics.passedThrough = 1 ∧
    (refusing.decodeAll cs).2.metrics.errors "1.2.3" .missingValue = 1 := by
  intro cs
  have clear : ∀ c ∈ cs.take 2, ∃ d, (refusing.decode c).1 = .ok d :=
    exists_mapM_ok_iff.1 ⟨[.passedThrough ⟨"1.2.4", true, some []⟩,
      .typed (.request (.standard .getAuthorizationEntry))], by decide +kernel⟩
  have first : FirstFault (fun c => (refusing.decode c).1) cs 2 (.missingValue "1.2.3") :=
    ⟨clear, _, rfl, by decide +kernel⟩
  obtain ⟨-, failed, -, left, -, untried, -⟩ := lists_stop_at_first_fault cs cs refusing
  have failed := (failed _).2 ⟨2, first⟩
  rw [left 2 _ first]
  exact ⟨failed, untried _ failed, by decide +kernel, by decide +kernel⟩

end Ldap.Registry
