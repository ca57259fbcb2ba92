import Ldap.DecodeError
import Mathlib.Data.List.Forall2

/-! Outcomes of decoding: when a composed decoder succeeds, and which faults it can end with. -/
namespace Ldap

section
variable {ε α β : Type} {x : Except ε α}

@[simp] theorem bind_ok_iff {f : α → Except ε β} {b : β} :
    x >>= f = .ok b ↔ ∃ a, x = .ok a ∧ f a = .ok b := by
  cases x <;> simp [bind, Except.bind]

@[simp] theorem bind_error_iff {f : α → Except ε β} {e : ε} :
    x >>= f = .error e ↔ x = .error e ∨ ∃ a, x = .ok a ∧ f a = .error e := by
  cases x <;> simp [bind, Except.bind]

@[simp] theorem map_ok_iff {f : α → β} {b : β} : f <$> x = .ok b ↔ ∃ a, x = .ok a ∧ f a = b := by
  cases x <;> simp [Functor.map, Except.map]

@[simp] theorem map_error_iff {f : α → β} {e : ε} : f <$> x = .error e ↔ x = .error e := by
  cases x <;> simp [Functor.map, Except.map]

@[simp] theorem ok_bind (a : α) (f : α → Except ε β) : Except.ok a >>= f = f a := rfl

@[simp] theorem error_bind (e : ε) (f : α → Except ε β) : Except.error e >>= f = .error e := rfl

@[simp] theorem map_ok (a : α) (f : α → β) : f <$> (Except.ok a : Except ε α) = .ok (f a) := rfl

@[simp] theorem toOption_eq_some_iff {a : α} : x.toOption = some a ↔ x = .ok a := by
  cases x <;> simp [Except.toOption]

@[simp] theorem mapM_ok_iff {f : α → Except ε β} {xs : List α} {ys : List β} :
    xs.mapM f = .ok ys ↔ List.Forall₂ (fun x y => f x = .ok y) xs ys := by
  induction xs generalizing ys with
  | nil => simp [List.forall₂_nil_left_iff, pure, Except.pure, eq_comm]
  | cons x xs ih =>
    rw [List.mapM_cons, List.forall₂_cons_left_iff]
    simp only [bind_ok_iff, ih, pure, Except.pure, Except.ok.injEq]
    constructor
    · rintro ⟨y, first, ys, others, rfl⟩
      exact ⟨y, ys, first, others, rfl⟩
    · rintro ⟨y, ys, first, others, rfl⟩
      exact ⟨y, first, ys, others, rfl⟩

theorem exists_of_mem_mapM {f : α → Except ε β} {xs : List α} {ys : List β} (h : xs.mapM f = .ok ys)
    {y : β} (member : y ∈ ys) : ∃ x ∈ xs, f x = .ok y := by
  have related := mapM_ok_iff.1 h
  clear h
  induction related with
  | nil => cases member
  | @cons x _ xs _ first _ ih =>
    rw [List.mem_cons] at member
    rcases member with rfl | member
    · exact ⟨x, List.mem_cons_self, first⟩
    · obtain ⟨x, there, read⟩ := ih member
      exact ⟨x, List.mem_cons_of_mem _ there, read⟩

structure FirstFault (f : α → Except ε β) (xs : List α) (i : Nat) (e : ε) : Prop where
  clear : ∀ a ∈ xs.take i, ∃ b, f a = .ok b
  fault : ∃ a, xs[i]? = some a ∧ f a = .error e

section
variable {f : α → Except ε β} {a : α} {xs : List α} {i : Nat} {e : ε}

theorem firstFault_nil : ¬ FirstFault f [] i e := by
  intro h
  simpa using h.fault

@[simp] theorem firstFault_zero : FirstFault f (a :: xs) 0 e ↔ f a = .error e := by
  constructor
  · intro h
    simpa using h.fault
  · intro fault
    exact ⟨by simp, a, rfl, fault⟩

@[simp] theorem firstFault_succ :
    FirstFault f (a :: xs) (i + 1) e ↔ (∃ b, f a = .ok b) ∧ FirstFault f xs i e := by
  constructor
  · intro ⟨clear, fault⟩
    rw [List.take_succ_cons, List.forall_mem_cons] at clear
    exact ⟨clear.1, clear.2, fault⟩
  · intro ⟨first, clear, fault⟩
    refine ⟨?_, fault⟩
    rw [List.take_succ_cons, List.forall_mem_cons]
    exact ⟨first, clear⟩

theorem FirstFault.exists_append (h : FirstFault f xs i e) :
    ∃ before a after, xs = before ++ a :: after ∧
    before.length = i ∧ (∀ b ∈ before, ∃ y, f b = .ok y) ∧ f a = .error e := by
  obtain ⟨a, there, fault⟩ := h.fault
  obtain ⟨inside, rfl⟩ := List.getElem?_eq_some_iff.1 there
  exact ⟨xs.take i, xs[i], xs.drop (i + 1), by simp,
    List.length_take_of_le (Nat.le_of_lt inside), h.clear, fault⟩

@[simp] theorem mapM_error_iff : xs.mapM f = .error e ↔ ∃ i, FirstFault f xs i e := by
  induction xs with
  | nil => simp [firstFault_nil, pure, Except.pure]
  | cons a xs ih =>
    rw [List.mapM_cons, ← Nat.or_exists_add_one]
    simp only [firstFault_zero, firstFault_succ, exists_and_left, ← ih, bind_error_iff, pure,
      Except.pure, reduceCtorEq, and_false, exists_false, or_false, exists_and_right]

theorem exists_mapM_ok_iff : (∃ ys, xs.mapM f = .ok ys) ↔ ∀ a ∈ xs, ∃ b, f a = .ok b := by
  induction xs with
  | nil => simp [pure, Except.pure]
  | cons a xs ih =>
    rw [List.mapM_cons, List.forall_mem_cons, ← ih]
    simp only [bind_ok_iff, pure, Except.pure]
    constructor
    · rintro ⟨_, b, first, ys, others, -⟩
      exact ⟨⟨b, first⟩, ys, others⟩
    · rintro ⟨⟨b, first⟩, ys, others⟩
      exact ⟨_, b, first, ys, others, rfl⟩

theorem exists_firstFault (fault : ∃ a ∈ xs, ∃ e, f a = .error e) : ∃ i e, FirstFault f xs i e := by
  obtain ⟨a, member, e, fault⟩ := fault
  cases whole : xs.mapM f with
  | ok ys =>
    obtain ⟨b, clear⟩ := exists_mapM_ok_iff.1 ⟨ys, whole⟩ a member
    rw [fault] at clear
    cases clear
  | error first =>
    obtain ⟨i, at_i⟩ := mapM_error_iff.1 whole
    exact ⟨i, first, at_i⟩

end

end

@[simp] theorem blame_ok_iff {α : Type} {oid : Option String} {read : Except Ber.Error α} {a : α} :
    blame oid read = .ok a ↔ read = .ok a := by
  cases read <;> simp [blame, Except.mapError]

@[simp] theorem blame_ok {α : Type} (oid : Option String) (a : α) :
    blame oid (.ok a : Except Ber.Error α) = .ok a := rfl

@[simp] theorem blame_error {α : Type} (oid : Option String) (e : Ber.Error) :
    blame oid (.error e : Except Ber.Error α) = .error (.malformed oid (.ber e)) := rfl

def DecodeError.Blames (oid : Option String) (e : DecodeError) : Prop :=
  ∃ reason, e = .malformed oid reason

def OnlyFails {α : Type} (p : DecodeError → Prop) (x : Except DecodeError α) : Prop :=
  ∀ e, x = .error e → p e

namespace OnlyFails
variable {α β : Type} {p : DecodeError → Prop} {x : Except DecodeError α}

theorem ok (a : α) : OnlyFails p (.ok a : Except DecodeError α) := by
  intro e h
  cases h

theorem error {e : DecodeError} (h : p e) : OnlyFails p (.error e : Except DecodeError α) := by
  rintro e ⟨⟩
  exact h

theorem exists_error (h : OnlyFails p x) (never : ∀ a, x ≠ .ok a) : ∃ e, x = .error e ∧ p e := by
  cases x with
  | ok a => exact absurd rfl (never a)
  | error e => exact ⟨e, rfl, h e rfl⟩

theorem exists_malformed {oid : Option String} (h : OnlyFails (·.Blames oid) x)
    (never : ∀ a, x ≠ .ok a) :
    ∃ reason, x = .error (.malformed oid reason) := by
  obtain ⟨e, fault, reason, rfl⟩ := h.exists_error never
  exact ⟨reason, fault⟩

theorem bind {f : α → Except DecodeError β} (first : OnlyFails p x)
    (next : ∀ a, OnlyFails p (f a)) :
    OnlyFails p (x >>= f) := by
  intro e h
  rcases bind_error_iff.1 h with h | ⟨a, _, h⟩
  · exact first e h
  · exact next a e h

theorem mapM {f : α → Except DecodeError β} (each : ∀ a, OnlyFails p (f a)) (xs : List α) :
    OnlyFails p (xs.mapM f) := by
  induction xs with
  | nil => exact ok []
  | cons a xs ih =>
    rw [List.mapM_cons]
    exact (each a).bind fun b => ih.bind fun bs => ok (b :: bs)

theorem blame {oid : Option String} (h : ∀ e, p (.malformed oid (.ber e)))
    (read : Except Ber.Error α) :
    OnlyFails p (Ldap.blame oid read) := by
  cases read with
  | ok a => exact ok a
  | error e => exact error (h e)

theorem blame_blames (oid : Option String) (read : Except Ber.Error α) :
    OnlyFails (·.Blames oid) (Ldap.blame oid read) :=
  .blame (fun e => ⟨.ber e, rfl⟩) read

end OnlyFails
end Ldap
