import Ldap.Proofs.Registry.Runs
import Ldap.Proofs.Text.Order
import Mathlib.Data.String.Basic

/-! A registry as a map that remembers the last registration of an OID. The two counters of
registrations tell how many OIDs it knows. -/
namespace Ldap.Registry
open Std (TreeMap)

def registrations : List Event → List (String × Decoder)
  | [] => []
  | .registered oid d :: es => (oid, d) :: registrations es
  | .attempted _ :: es => registrations es

def last (oid : String) (regs : List (String × Decoder)) : Option Decoder := regs.reverse.lookup oid

@[simp] theorem last_cons (oid other : String) (d : Decoder) (regs : List (String × Decoder)) :
    last oid ((other, d) :: regs) = (last oid regs).or (if other = oid then some d else none) := by
  rw [last, List.reverse_cons, List.lookup_append, last]
  congr 1
  by_cases same : other = oid
  · rw [if_pos same, same, List.lookup_cons_self]
  · have unequal : (oid == other) = false := beq_eq_false_iff_ne.2 (Ne.symm same)
    rw [if_neg same, List.lookup_cons, unequal]
    rfl

theorem last_eq_none_iff {oid : String} {regs : List (String × Decoder)} :
    last oid regs = none ↔ ∀ reg ∈ regs, reg.1 ≠ oid := by
  simp only [last, List.lookup_eq_none_iff, List.mem_reverse, bne_iff_ne, ne_comm]

theorem decoder?_replay (es : List Event) (r : Registry) (oid : String) :
    (r.replay es).decoder? oid = (last oid (registrations es)).or (r.decoder? oid) := by
  induction es generalizing r with
  | nil => rfl
  | cons e es ih =>
    rw [replay_cons, ih]
    cases e with
    | registered other d =>
      rw [Event.next, decoder?_register, registrations, last_cons, Option.or_assoc]
      congr 1
      by_cases same : other = oid
      · rw [if_pos same, if_pos same, Option.some_or]
      · rw [if_neg same, if_neg same, Option.none_or]
    | attempted input => simp [Event.next, decoder?, registrations]

theorem decode_fst_congr {r later : Registry} {c : Envelope}
    (same : later.decoder? c.oid = r.decoder? c.oid) :
    (later.decode c).1 = (r.decode c).1 := by
  rw [decode_fst, decode_fst, same]

theorem decode_passedThrough_iff {r : Registry} {c g : Envelope} :
    (r.decode g).1 = .ok (.passedThrough c) ↔ r.decoder? g.oid = none ∧ c = g := by
  rw [decode_fst]
  cases r.decoder? g.oid with
  | none =>
    simp only [Except.ok.injEq, Decoded.passedThrough.injEq, true_and]
    exact eq_comm
  | some d =>
    dsimp only
    cases d.decode g <;> simp [Functor.map, Except.map]

section
variable {r : Registry} {oid : String}

theorem isRegistered_iff : r.isRegistered oid = true ↔ oid ∈ r.oids := by
  rw [isRegistered, oids, TreeMap.mem_keys, TreeMap.contains_iff_mem]

@[simp] theorem mem_oids_iff : oid ∈ r.oids ↔ r.decoder? oid ≠ none := by
  rw [← isRegistered_iff, isRegistered_eq_isSome, Option.isSome_iff_ne_none]

theorem oids_ascending (r : Registry) : r.oids.Pairwise fun a b => utf8 a < utf8 b :=
  TreeMap.ordered_keys.imp fun less => utf8_lt_utf8 (compare_lt_iff_lt.1 less)

theorem length_oids_register (oid : String) (d : Decoder) (r : Registry) :
    (r.register oid d).oids.length =
      if r.isRegistered oid then r.oids.length else r.oids.length + 1 := by
  rw [oids, TreeMap.length_keys, register, TreeMap.size_insert, isRegistered, oids,
    TreeMap.length_keys]

end

/-- The counters stand for `n` registrations, of which all but the first for each OID replaced a
decoder. -/
structure Accounted (n : Nat) (r : Registry) : Prop where
  registrations : r.metrics.registrations = .ofNat n
  fewer : r.oids.length ≤ n
  overrides : r.metrics.overrides = .ofNat (n - r.oids.length)

namespace Accounted
variable {n : Nat} {r : Registry}

theorem empty : Accounted 0 empty where
  registrations := rfl
  fewer := Nat.le_refl 0
  overrides := rfl

theorem register (h : Accounted n r) (oid : String) (d : Decoder) :
    Accounted (n + 1) (r.register oid d) := by
  have counted : (r.register oid d).metrics = r.metrics.countRegistration (r.isRegistered oid) :=
    rfl
  have known := length_oids_register oid d r
  have fewer := h.fewer
  cases again : r.isRegistered oid with
  | true =>
    rw [again, if_pos rfl] at known
    refine ⟨?_, ?_, ?_⟩
    · rw [counted, Metrics.countRegistration, h.registrations, UInt64.ofNat_add]
      rfl
    · omega
    · rw [counted, again, known, Metrics.countRegistration, if_pos rfl, h.overrides,
        Nat.sub_add_comm fewer, UInt64.ofNat_add]
      rfl
  | false =>
    rw [again, if_neg Bool.false_ne_true] at known
    refine ⟨?_, ?_, ?_⟩
    · rw [counted, Metrics.countRegistration, h.registrations, UInt64.ofNat_add]
      rfl
    · omega
    · rw [counted, again, known, Metrics.countRegistration, if_neg Bool.false_ne_true, h.overrides,
        Nat.add_sub_add_right]

theorem attempt (h : Accounted n r) (input : Input) : Accounted n (r.attempt input).2 := by
  have outcome := attempt_outcome input r
  generalize r.attempt input = after at outcome
  cases outcome with
  | passedThrough => exact ⟨h.registrations, h.fewer, h.overrides⟩
  | recorded result => cases result <;> exact ⟨h.registrations, h.fewer, h.overrides⟩
  | refused => exact h

theorem replay (h : Accounted n r) (es : List Event) :
    Accounted (n + (Registry.registrations es).length) (r.replay es) := by
  induction es generalizing n r with
  | nil => exact h
  | cons e es ih =>
    rw [replay_cons]
    cases e with
    | registered oid d =>
      have rest := ih (h.register oid d)
      rwa [Nat.add_assoc, Nat.add_comm 1] at rest
    | attempted input => exact ih (h.attempt input)

end Accounted

/-- A registry is a map in which the last registration of an OID wins, whatever else it was asked
in between. Its decoder for an OID is the one registered last for exactly this OID, and what a
control is decoded to depends on that decoder and the control alone. A control passes through,
unchanged, if and only if nothing was registered for its OID; otherwise the faults of the decoder
are those of the registry. The OIDs are listed once each, in the order of their octets.
Registrations are counted, and those that replaced no decoder are as many as there are OIDs. -/
theorem last_registration_wins (ops : List Operation) :
    let r := empty.run ops
    let regs := registrations (empty.events ops)
    ((∀ oid, r.decoder? oid = last oid regs) ∧
      (∀ g, (r.decode g).1 =
        match last g.oid regs with
        | some d => .typed <$> d.decode g
        | none => .ok (.passedThrough g)) ∧
      ∀ more g, (∀ reg ∈ registrations (r.events more), reg.1 ≠ g.oid) →
        ((r.run more).decode g).1 = (r.decode g).1) ∧
    (∀ g, ((∃ c, (r.decode g).1 = .ok (.passedThrough c)) ↔ ∀ reg ∈ regs, reg.1 ≠ g.oid) ∧
      (∀ c, (r.decode g).1 = .ok (.passedThrough c) → c = g) ∧
      ∀ d e, last g.oid regs = some d → d.decode g = .error e → (r.decode g).1 = .error e) ∧
    ((r.oids.Pairwise fun a b => utf8 a < utf8 b) ∧
      ∀ oid, (oid ∈ r.oids ↔ ∃ reg ∈ regs, reg.1 = oid) ∧
      (r.isRegistered oid = true ↔ oid ∈ r.oids)) ∧
    (regs.length < 2 ^ 64 →
      r.metrics.registrations.toNat = regs.length ∧ r.metrics.overrides ≤ r.metrics.registrations ∧
      (r.metrics.registrations - r.metrics.overrides).toNat = r.oids.length) := by
  intro r regs
  have decoders (oid : String) : r.decoder? oid = last oid regs := by
    have run : r = empty.replay (empty.events ops) := run_eq_replay ops empty
    rw [run, decoder?_replay]
    exact Option.or_none
  have known (oid : String) : r.decoder? oid = none ↔ ∀ reg ∈ regs, reg.1 ≠ oid := by
    rw [decoders, last_eq_none_iff]
  refine ⟨⟨decoders, fun g => ?_, fun more g others => ?_⟩,
    fun g => ⟨?_, fun c passed => ?_, fun d e registered failed => ?_⟩,
    ⟨oids_ascending r, fun oid => ⟨?_, isRegistered_iff⟩⟩, fun few => ?_⟩
  · have path := decode_fst g r
    rw [decoders] at path
    exact path
  · apply decode_fst_congr
    rw [run_eq_replay, decoder?_replay, last_eq_none_iff.2 others, Option.none_or]
  · simp only [decode_passedThrough_iff, ← known, exists_and_left, exists_eq, and_true]
  · exact (decode_passedThrough_iff.1 passed).2
  · rw [decode_fst, decoders, registered]
    dsimp only
    rw [failed]
    rfl
  · simp only [mem_oids_iff, Ne, known, not_forall, not_not, exists_prop]
  · have account : Accounted regs.length r := by
      have whole := Accounted.empty.replay (empty.events ops)
      rwa [Nat.zero_add, ← run_eq_replay] at whole
    have fewer := account.fewer
    have total : r.metrics.registrations.toNat = regs.length := by
      rw [account.registrations, UInt64.toNat_ofNat', Nat.mod_eq_of_lt few]
    have replaced : r.metrics.overrides.toNat = regs.length - r.oids.length := by
      rw [account.overrides, UInt64.toNat_ofNat', Nat.mod_eq_of_lt (by omega)]
    have le : r.metrics.overrides ≤ r.metrics.registrations := by
      rw [UInt64.le_iff_toNat_le]
      omega
    refine ⟨total, le, ?_⟩
    rw [UInt64.toNat_sub_of_le _ _ le]
    omega

def reshuffled : List Operation :=
  [.registerAll, .register "1.2" (.ofFunction fun c => .ok (.plain c)),
    .decode ⟨"1.2", false, none⟩, .copy SyncRequest.oid "1.2", .look,
    .decodeAll [⟨"1.3", true, none⟩, ⟨"1.2", true, some []⟩], .registerAll]

theorem reshuffled_oids :
    ((empty.run reshuffled).decode ⟨"1.2", true, none⟩).1 =
      .error (.malformed "1.2" (.foreignOid SyncRequest.oid "1.2")) ∧
    ((empty.run reshuffled).decode ⟨"1.3", true, none⟩).1 =
      .ok (.passedThrough ⟨"1.3", true, none⟩) ∧
    (empty.run reshuffled).metrics.registrations.toNat = 10 ∧
    ((empty.run reshuffled).metrics.registrations -
      (empty.run reshuffled).metrics.overrides).toNat = 5 := by
  obtain ⟨⟨_, outcome, _⟩, _, _, counters⟩ := last_registration_wins reshuffled
  have ten : (registrations (empty.events reshuffled)).length = 10 := by decide +kernel
  have five : (empty.run reshuffled).oids.length = 5 := by decide +kernel
  obtain ⟨total, _, first⟩ := counters (by rw [ten]; decide)
  rw [ten] at total
  rw [five] at first
  exact ⟨outcome ⟨"1.2", true, none⟩, outcome ⟨"1.3", true, none⟩, total, first⟩

end Ldap.Registry
