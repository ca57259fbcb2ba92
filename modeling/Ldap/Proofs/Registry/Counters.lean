import Ldap.Proofs.Registry.Runs

/-! What the counters of a registry count. Each attempt to decode moves one counter by one, but
for objects that are refused before a decoder is found; over a run the counters are the numbers of
such attempts. -/
namespace Ldap
open Std (TreeMap TransCmp LawfulEqCmp)

instance : TransCmp Failures.order :=
  inferInstanceAs (TransCmp
    (compareLex (compareOn Failures.oid) (compareOn fun f : Failures => f.kind.name)))

theorem DecodeError.Kind.name_injective {a b : Kind} (h : a.name = b.name) : a = b := by
  cases a <;> cases b <;> first | rfl | exact absurd h (by decide)

instance : LawfulEqCmp Failures.order where
  eq_of_compare {f g} same := by
    obtain ⟨oid, kind⟩ := f
    obtain ⟨other, otherKind⟩ := g
    rw [Failures.order, compareLex_eq_eq] at same
    obtain ⟨oids, kinds⟩ := same
    simp only [compareOn] at oids kinds
    rw [LawfulEqCmp.eq_of_compare oids,
      DecodeError.Kind.name_injective (LawfulEqCmp.eq_of_compare kinds)]

namespace Metrics

theorem getD_increment {α : Type} [DecidableEq α] {order : α → α → Ordering} [TransCmp order]
    [LawfulEqCmp order] (key other : α) (counts : TreeMap α UInt64 order) :
    (increment key counts).getD other 0 = counts.getD other 0 + if key = other then 1 else 0 := by
  rw [increment, TreeMap.getD_alter]
  by_cases same : key = other
  · subst same
    simp [TreeMap.getD_eq_getD_getElem?]
  · simp [same]

inductive Counter where
  | passedThrough
  | decoded (oid : String)
  | errors (oid : String) (kind : DecodeError.Kind)
  deriving DecidableEq

def count : Counter → Metrics → UInt64
  | .passedThrough, m => m.passedThrough
  | .decoded oid, m => m.decoded oid
  | .errors oid kind, m => m.errors oid kind

def move : Counter → Metrics → Metrics
  | .passedThrough, m => m.countPassedThrough
  | .decoded oid, m => m.countDecoded oid
  | .errors oid kind, m => m.countError oid kind

@[simp] theorem count_move (moved counter : Counter) (m : Metrics) :
    (m.move moved).count counter = m.count counter + if moved = counter then 1 else 0 := by
  cases moved with
  | passedThrough => cases counter <;> simp [count, move, countPassedThrough, decoded, errors]
  | decoded oid =>
    cases counter <;> simp [count, move, countDecoded, decoded, errors, getD_increment]
  | errors oid kind =>
    cases counter <;> simp [count, move, countError, decoded, errors, getD_increment]

@[simp] theorem registrations_move (moved : Counter) (m : Metrics) :
    (m.move moved).registrations = m.registrations := by
  cases moved <;> rfl

@[simp] theorem overrides_move (moved : Counter) (m : Metrics) :
    (m.move moved).overrides = m.overrides := by
  cases moved <;> rfl

@[simp] theorem count_countRegistration (counter : Counter) (replaced : Bool) (m : Metrics) :
    (m.countRegistration replaced).count counter = m.count counter := by
  cases counter <;> rfl

end Metrics

namespace Registry
open Metrics (Counter)

/-- An attempt to decode an input, with the registry that is asked. -/
structure Attempt where
  registry : Registry
  input : Input

def attempts : List Event → Registry → List Attempt
  | [], _ => []
  | .registered oid d :: es, r => attempts es (r.register oid d)
  | .attempted input :: es, r => ⟨r, input⟩ :: attempts es (r.attempt input).2

namespace Attempt

def oid? (a : Attempt) : Option String := a.input.oid?

def result (a : Attempt) : Except DecodeError Decoded := (a.registry.attempt a.input).1

def after (a : Attempt) : Registry := (a.registry.attempt a.input).2

def passesThrough (a : Attempt) : Bool :=
  match a.result with
  | .ok d => !d.isTyped
  | .error _ => false

def isTyped (a : Attempt) : Bool :=
  match a.result with
  | .ok d => d.isTyped
  | .error _ => false

def failsWith (kind : DecodeError.Kind) (a : Attempt) : Bool :=
  match a.result with
  | .ok _ => false
  | .error e => e.kind = kind

/-- The counter that an attempt moves, if any. A result is counted for the OID in the input,
whatever the OID of the control that the decoder made of it. -/
def counter? (a : Attempt) : Option Counter :=
  match a.result with
  | .ok (.passedThrough _) => some .passedThrough
  | .ok (.typed _) => a.oid?.map .decoded
  | .error e =>
    (a.oid?.filter fun oid => a.registry.isRegistered oid).map fun oid => .errors oid e.kind

section
variable {a : Attempt}

theorem counter?_eq_passedThrough : a.counter? = some .passedThrough ↔ a.passesThrough = true := by
  rw [counter?, passesThrough]
  cases a.result with
  | ok d => cases d <;> simp [Decoded.isTyped]
  | error e => simp

theorem counter?_eq_decoded {oid : String} :
    a.counter? = some (.decoded oid) ↔ a.oid? = some oid ∧ a.isTyped = true := by
  rw [counter?, isTyped]
  cases a.result with
  | ok d => cases d <;> simp [Decoded.isTyped]
  | error e => simp

theorem counter?_eq_errors {oid : String} {kind : DecodeError.Kind} :
    a.counter? = some (.errors oid kind) ↔
      a.oid? = some oid ∧ a.registry.isRegistered oid = true ∧ a.failsWith kind = true := by
  rw [counter?, failsWith]
  cases a.result with
  | ok d => cases d <;> simp
  | error e => simp [Option.filter_eq_some_iff, and_assoc]

end

theorem moves_or_leaves (a : Attempt) :
    (∃ counter, a.counter? = some counter ∧
      a.after = { a.registry with metrics := a.registry.metrics.move counter }) ∨
    a.counter? = none ∧ a.after = a.registry ∧
      (∀ oid, a.oid? = some oid → a.registry.isRegistered oid = false) ∧
      ∃ p v e, a.input = .object p v ∧ a.result = .error e := by
  obtain ⟨r, input⟩ := a
  have outcome := attempt_outcome input r
  generalize made : r.attempt input = step at outcome
  have result : (Attempt.mk r input).result = step.1 := by rw [← made]; rfl
  have after : (Attempt.mk r input).after = step.2 := by rw [← made]; rfl
  cases outcome with
  | passedThrough => exact .inl ⟨.passedThrough, by rw [counter?, result], after⟩
  | @recorded _ oid d answer named found =>
    have known : r.isRegistered oid = true := by simp [found]
    cases answer with
    | ok c =>
      have typed : (Attempt.mk r input).isTyped = true := by rw [isTyped, result]; rfl
      exact .inl ⟨.decoded oid, counter?_eq_decoded.2 ⟨named, typed⟩, after⟩
    | error e =>
      have failed : (Attempt.mk r input).failsWith e.kind = true := by
        rw [failsWith, result]
        exact decide_eq_true rfl
      exact .inl ⟨.errors oid e.kind, counter?_eq_errors.2 ⟨named, known, failed⟩, after⟩
  | refused missing =>
    have unknown := decoderFor?_eq_none_iff.1 missing
    refine .inr ⟨?_, after, unknown, _, _, _, rfl, result⟩
    rw [counter?, result]
    simpa [oid?] using unknown

variable (a : Attempt)

@[simp] theorem count_after (counter : Counter) :
    a.after.metrics.count counter = a.registry.metrics.count counter +
      if a.counter? = some counter then 1 else 0 := by
  obtain ⟨moved, counted, after⟩ | ⟨still, after, -⟩ := a.moves_or_leaves
  · rw [after, counted]
    simp
  · rw [after, still, if_neg nofun, UInt64.add_zero]

theorem counter?_eq_none_iff : a.counter? = none ↔
    (∀ oid, a.oid? = some oid → a.registry.isRegistered oid = false) ∧
      ∃ p v e, a.input = .object p v ∧ a.result = .error e := by
  constructor
  · intro still
    obtain ⟨moved, counted, -⟩ | ⟨-, -, refused⟩ := a.moves_or_leaves
    · rw [still] at counted
      cases counted
    · exact refused
  · rintro ⟨unknown, p, v, e, -, failed⟩
    rw [counter?, failed]
    simpa using unknown

theorem keeps_registrations : a.after.decoders = a.registry.decoders ∧
    a.after.metrics.registrations = a.registry.metrics.registrations ∧
    a.after.metrics.overrides = a.registry.metrics.overrides := by
  obtain ⟨moved, -, after⟩ | ⟨-, after, -⟩ := a.moves_or_leaves
  · rw [after]
    exact ⟨rfl, Metrics.registrations_move moved _, Metrics.overrides_move moved _⟩
  · rw [after]
    exact ⟨rfl, rfl, rfl⟩

theorem counts_unchanged_iff :
    (∀ counter, a.after.metrics.count counter = a.registry.metrics.count counter) ↔
      a.counter? = none := by
  constructor
  · intro same
    cases counted : a.counter? with
    | none => rfl
    | some moved =>
      have more := same moved
      rw [count_after, counted, if_pos rfl] at more
      exact absurd more (by simp)
  · intro still counter
    rw [count_after, still, if_neg nofun, UInt64.add_zero]

end Attempt

theorem count_replay (es : List Event) (r : Registry) (counter : Counter) :
    (r.replay es).metrics.count counter =
      r.metrics.count counter +
        .ofNat ((r.attempts es).countP fun a => a.counter? = some counter) := by
  induction es generalizing r with
  | nil => exact (UInt64.add_zero _).symm
  | cons e es ih =>
    rw [replay_cons, ih]
    cases e with
    | registered oid d => simp [Event.next, attempts, register]
    | attempted input =>
      have first : (r.attempt input).2.metrics.count counter = r.metrics.count counter +
          if (Attempt.mk r input).counter? = some counter then 1 else 0 :=
            (Attempt.mk r input).count_after counter
      rw [Event.next, attempts, first, List.countP_cons, UInt64.ofNat_add, UInt64.add_assoc,
        UInt64.add_comm (ite ..)]
      congr 2
      by_cases moved : (Attempt.mk r input).counter? = some counter <;> simp [moved]

/-- Over a run from the empty registry, the counters are the numbers of the attempts that they are
for. Controls that pass through are counted together; results of decoders are counted for the OID
of the input, failures also for their kind. An attempt leaves every counter as it was if and only
if it fails on an object whose OID is no string, or has no decoder; no attempt changes the
decoders or the counters of registrations. -/
theorem counters_count_attempts (ops : List Operation)
    (few : (empty.attempts (empty.events ops)).length < 2 ^ 64) :
    let m := (empty.run ops).metrics
    let made := empty.attempts (empty.events ops)
    m.passedThrough.toNat = made.countP (fun a => a.passesThrough) ∧
    (∀ oid, (m.decoded oid).toNat = made.countP fun a => a.oid? = some oid ∧ a.isTyped) ∧
    (∀ oid kind, (m.errors oid kind).toNat =
      made.countP fun a => a.oid? = some oid ∧ a.registry.isRegistered oid ∧ a.failsWith kind) ∧
    ∀ a : Attempt,
      ((∀ counter, a.after.metrics.count counter = a.registry.metrics.count counter) ↔
        (∀ oid, a.oid? = some oid → a.registry.isRegistered oid = false) ∧
          ∃ p v e, a.input = .object p v ∧ a.result = .error e) ∧
      a.after.decoders = a.registry.decoders ∧
      a.after.metrics.registrations = a.registry.metrics.registrations ∧
      a.after.metrics.overrides = a.registry.metrics.overrides := by
  intro m made
  have counts (counter : Counter) :
      (m.count counter).toNat = made.countP fun a => a.counter? = some counter := by
    have whole := count_replay (empty.events ops) empty counter
    have zero : empty.metrics.count counter = 0 := by cases counter <;> rfl
    rw [← run_eq_replay, zero, UInt64.zero_add] at whole
    rw [whole, UInt64.toNat_ofNat', Nat.mod_eq_of_lt (Nat.lt_of_le_of_lt List.countP_le_length few)]
  refine ⟨?_, fun oid => ?_, fun oid kind => ?_,
    fun a => ⟨a.counts_unchanged_iff.trans a.counter?_eq_none_iff, a.keeps_registrations⟩⟩
  · rw [← show m.count .passedThrough = m.passedThrough from rfl, counts]
    simp only [Attempt.counter?_eq_passedThrough, Bool.decide_eq_true]
  · rw [← show m.count (.decoded oid) = m.decoded oid from rfl, counts]
    simp only [Attempt.counter?_eq_decoded]
  · rw [← show m.count (.errors oid kind) = m.errors oid kind from rfl, counts]
    simp only [Attempt.counter?_eq_errors]

def stumbling : List Operation :=
  [.register "1.2" (.ofFunction fun _ => .ok (.plain ⟨"1.9", false, none⟩)),
    .decode ⟨"1.2", true, none⟩,
    .register "1.2" (.ofFunction fun c => .error (.missingValue c.oid)),
    .decodeAll [⟨"1.3", false, none⟩, ⟨"1.2", true, none⟩, ⟨"1.3", true, none⟩],
    .decodeJson .lenient (.object [("oid", .bool true)]),
    .decodeJson .lenient (.object [("oid", .string "1.3"), ("criticality", .string "high")])]

theorem stumbling_counters :
    (empty.run stumbling).metrics.passedThrough.toNat = 1 ∧
    ((empty.run stumbling).metrics.decoded "1.2").toNat = 1 ∧
    ((empty.run stumbling).metrics.decoded "1.9").toNat = 0 ∧
    ((empty.run stumbling).metrics.errors "1.2" .missingValue).toNat = 1 ∧
    ((empty.run stumbling).metrics.errors "1.3" .typeMismatch).toNat = 0 := by
  have five : (empty.attempts (empty.events stumbling)).length = 5 := by decide +kernel
  obtain ⟨passed, decoded, failed, -⟩ := counters_count_attempts stumbling (by rw [five]; decide)
  rw [passed, decoded, decoded, failed, failed]
  decide +kernel

end Registry
end Ldap
