import Ldap.Proofs.Registry.Counters

/-! Runs of updates of the counters. Each counter is the number of its updates, and each map has a
key for what was ever counted in it. Counters wrap, so that a key is told from no key by its
counter only in runs shorter than a counter can count. -/
namespace Ldap.Metrics
open Std (TreeMap TransCmp LawfulEqCmp)

inductive Update where
  | registration (replaced : Bool)
  | move (counter : Counter)
  deriving DecidableEq

def Update.next : Update → Metrics → Metrics
  | .registration replaced, m => m.countRegistration replaced
  | .move counter, m => m.move counter

def update (us : List Update) (m : Metrics) : Metrics := us.foldl (fun m u => u.next m) m

def after (us : List Update) : Metrics := update us {}

@[simp] theorem update_cons (u : Update) (us : List Update) (m : Metrics) :
    update (u :: us) m = update us (u.next m) := rfl

/-- A counter with a place in one of the maps has a key there; that of controls that pass through
needs none. -/
def Tracks (m : Metrics) : Counter → Prop
  | .passedThrough => True
  | .decoded oid => oid ∈ m.decodedByOid
  | .errors oid kind => Failures.mk oid kind ∈ m.failures

section
variable {α : Type} {order : α → α → Ordering} [TransCmp order] [LawfulEqCmp order]

theorem mem_increment {key other : α} {counts : TreeMap α UInt64 order} :
    other ∈ increment key counts ↔ key = other ∨ other ∈ counts := by
  rw [increment, TreeMap.mem_alter]
  by_cases same : key = other
  · simp [same]
  · have different : order key other ≠ .eq := fun equal => same (LawfulEqCmp.eq_of_compare equal)
    simp [same, different]

end

@[simp] theorem tracks_move {moved counter : Counter} {m : Metrics} :
    (m.move moved).Tracks counter ↔ moved = counter ∨ m.Tracks counter := by
  cases moved with
  | passedThrough => cases counter <;> simp [Tracks, move, countPassedThrough]
  | decoded oid => cases counter <;> simp [Tracks, move, countDecoded, mem_increment]
  | errors oid kind => cases counter <;> simp [Tracks, move, countError, mem_increment]

@[simp] theorem tracks_update {us : List Update} {m : Metrics} {counter : Counter} :
    (update us m).Tracks counter ↔ m.Tracks counter ∨ .move counter ∈ us := by
  induction us generalizing m with
  | nil => simp [update]
  | cons u us ih =>
    rw [update_cons, ih, List.mem_cons, or_left_comm]
    cases u with
    | registration replaced =>
      have same : ((Update.registration replaced).next m).Tracks counter ↔ m.Tracks counter := by
        cases counter <;> rfl
      simp [same]
    | move moved =>
      rw [Update.next, tracks_move, Update.move.injEq, eq_comm]
      tauto

@[simp] theorem count_update (us : List Update) (m : Metrics) (counter : Counter) :
    (update us m).count counter = m.count counter + .ofNat (us.count (.move counter)) := by
  induction us generalizing m with
  | nil => exact (UInt64.add_zero _).symm
  | cons u us ih =>
    rw [update_cons, ih]
    cases u with
    | registration replaced =>
      simp [Update.next]
    | move moved =>
      rw [Update.next, count_move, List.count_cons, UInt64.ofNat_add, UInt64.add_assoc,
        UInt64.add_comm (ite ..)]
      congr 2
      by_cases same : moved = counter <;> simp [same]

@[simp] theorem registrations_update (us : List Update) (m : Metrics) :
    (update us m).registrations =
    m.registrations + .ofNat (us.count (.registration false) + us.count (.registration true)) := by
  induction us generalizing m with
  | nil => exact (UInt64.add_zero _).symm
  | cons u us ih =>
    rw [update_cons, ih]
    cases u with
    | move moved =>
      simp [Update.next]
    | registration replaced =>
      have once : us.count (.registration false) + us.count (.registration true) + 1 =
          (Update.registration replaced :: us).count (.registration false) +
            (Update.registration replaced :: us).count (.registration true) := by
        cases replaced with
        | false => rw [List.count_cons_self, List.count_cons_of_ne (by simp), Nat.add_right_comm]
        | true => rw [List.count_cons_of_ne (by simp), List.count_cons_self, Nat.add_assoc]
      rw [Update.next, countRegistration, ← once, UInt64.ofNat_add _ 1, UInt64.add_assoc]
      congr 1
      exact UInt64.add_comm _ _

@[simp] theorem overrides_update (us : List Update) (m : Metrics) :
    (update us m).overrides = m.overrides + .ofNat (us.count (.registration true)) := by
  induction us generalizing m with
  | nil => exact (UInt64.add_zero _).symm
  | cons u us ih =>
    rw [update_cons, ih]
    cases u with
    | move moved => simp [Update.next]
    | registration replaced =>
      cases replaced with
      | false =>
        rw [Update.next, countRegistration, if_neg Bool.false_ne_true,
          List.count_cons_of_ne (by simp)]
      | true =>
        rw [Update.next, countRegistration, if_pos rfl, List.count_cons_self, UInt64.ofNat_add,
          UInt64.add_assoc]
        congr 1
        exact UInt64.add_comm _ _

section
variable (us : List Update) (counter : Counter)

@[simp] theorem tracks_after :
    (after us).Tracks counter ↔ counter = .passedThrough ∨ .move counter ∈ us := by
  rw [after, tracks_update]
  cases counter <;> simp [Tracks]

@[simp] theorem count_after : (after us).count counter = .ofNat (us.count (.move counter)) := by
  have fresh : count counter {} = 0 := by cases counter <;> rfl
  simp [after, fresh]

end

theorem mem_iff_count_ne_zero {us : List Update} (few : us.length < 2 ^ 64) (counter : Counter) :
    .move counter ∈ us ↔ (after us).count counter ≠ 0 := by
  have small : us.count (.move counter) < 2 ^ 64 := Nat.lt_of_le_of_lt List.count_le_length few
  rw [← List.count_pos_iff, count_after, Ne, ← UInt64.toNat_inj, UInt64.toNat_ofNat',
    Nat.mod_eq_of_lt small]
  exact Nat.pos_iff_ne_zero

end Ldap.Metrics
