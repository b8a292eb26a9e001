import Galley.Fault
import Mathlib.Data.List.Forall2

/-!
Outcomes of computations that may fail.

A computation made of two succeeds when both do, one after the other, and otherwise ends in
the fault of the first that fails (`bind_eq_ok_iff`, `bind_eq_error_iff`). So a list of
computations succeeds when each of them does (`mapM_eq_ok_iff`), and otherwise ends in the
fault of the first that has one (`mapM_eq_error_iff`). The same holds of the outcomes of
attempts, which forget the log (`Attempt.outcome_bind_eq_ok_iff`,
`Attempt.outcome_mapM_eq_ok_iff`).
-/

namespace Galley

theorem exists_forall₂_iff {α β : Type} {R : α → β → Prop} {xs : List α} :
    (∃ ys, List.Forall₂ R xs ys) ↔ ∀ x ∈ xs, ∃ y, R x y := by
  induction xs with
  | nil => simp
  | cons x xs ih =>
      rw [List.forall_mem_cons, ← ih]
      constructor
      · rintro ⟨_, hxs⟩
        cases hxs with
        | cons hx hxs => exact ⟨⟨_, hx⟩, _, hxs⟩
      · rintro ⟨⟨y, hx⟩, ys, hxs⟩
        exact ⟨y :: ys, .cons hx hxs⟩

section Except

variable {ε α β : Type} {x : Except ε α} {f : α → Except ε β}

theorem pure_eq_ok_iff {a b : α} : (pure a : Except ε α) = .ok b ↔ b = a :=
  ⟨fun h => (Except.ok.inj h).symm, fun h => congrArg Except.ok h.symm⟩

/-- Two computations, one after the other, succeed when both do. -/
theorem bind_eq_ok_iff {b : β} : (x >>= f) = .ok b ↔ ∃ a, x = .ok a ∧ f a = .ok b := by
  cases x with
  | error e =>
      constructor
      · intro h
        cases h
      · rintro ⟨a, ha, -⟩
        cases ha
  | ok a =>
      constructor
      · intro h
        exact ⟨a, rfl, h⟩
      · rintro ⟨a', ha, h⟩
        cases ha
        exact h

/-- Two computations, one after the other, fail when the first does or the second one. -/
theorem bind_eq_error_iff {e : ε} :
    (x >>= f) = .error e ↔ x = .error e ∨ ∃ a, x = .ok a ∧ f a = .error e := by
  cases x with
  | error e' =>
      constructor
      · intro h
        cases h
        exact .inl rfl
      · rintro (h | ⟨a, ha, -⟩)
        · cases h
          rfl
        · cases ha
  | ok a =>
      constructor
      · intro h
        exact .inr ⟨a, rfl, h⟩
      · rintro (h | ⟨a', ha, h⟩)
        · cases h
        · cases ha
          exact h

theorem map_eq_ok_iff {g : α → β} {b : β} : x.map g = .ok b ↔ ∃ a, x = .ok a ∧ b = g a := by
  cases x <;> simp [Except.map, eq_comm]

theorem mapError_eq_ok_iff {ε' : Type} {g : ε → ε'} {a : α} :
    x.mapError g = .ok a ↔ x = .ok a := by
  cases x <;> simp [Except.mapError]

theorem mapError_eq_error_iff {ε' : Type} {g : ε → ε'} {e : ε'} :
    x.mapError g = .error e ↔ ∃ e', x = .error e' ∧ e = g e' := by
  cases x <;> simp [Except.mapError, eq_comm]

theorem mapM_eq_ok_iff {xs : List α} {ys : List β} :
    xs.mapM f = .ok ys ↔ List.Forall₂ (fun x y => f x = .ok y) xs ys := by
  induction xs generalizing ys with
  | nil => simp [pure, Except.pure, eq_comm]
  | cons x xs ih =>
      rw [List.mapM_cons]
      simp only [bind_eq_ok_iff, ih, List.forall₂_cons_left_iff]
      constructor
      · rintro ⟨y, hy, rest, hrest, heq⟩
        exact ⟨y, rest, hy, hrest, (Except.ok.inj heq).symm⟩
      · rintro ⟨y, rest, hy, hrest, rfl⟩
        exact ⟨y, hy, rest, hrest, rfl⟩

theorem mapM_succeeds_iff {xs : List α} :
    (∃ ys, xs.mapM f = .ok ys) ↔ ∀ x ∈ xs, ∃ y, f x = .ok y := by
  simp only [mapM_eq_ok_iff]
  exact exists_forall₂_iff

/-- The first item with a fault, behind items without one. -/
theorem mapM_eq_error_iff {xs : List α} {e : ε} :
    xs.mapM f = .error e ↔
      ∃ front x back, xs = front ++ x :: back ∧ (∀ y ∈ front, ∃ b, f y = .ok b) ∧
        f x = .error e := by
  induction xs with
  | nil => simp [pure, Except.pure]
  | cons x xs ih =>
      rw [List.mapM_cons]
      simp only [bind_eq_error_iff, ih]
      constructor
      · rintro (hx | ⟨b, hb, ⟨front, y, back, rfl, hfront, hy⟩ | ⟨bs, -, hbs⟩⟩)
        · exact ⟨[], x, xs, rfl, by simp, hx⟩
        · exact ⟨x :: front, y, back, rfl, List.forall_mem_cons.mpr ⟨⟨b, hb⟩, hfront⟩, hy⟩
        · cases hbs
      · rintro ⟨front, y, back, heq, hfront, hy⟩
        cases front with
        | nil =>
            obtain ⟨rfl, rfl⟩ := List.cons.inj heq
            exact .inl hy
        | cons z front =>
            obtain ⟨rfl, rfl⟩ := List.cons.inj heq
            obtain ⟨⟨b, hb⟩, hfront⟩ := List.forall_mem_cons.mp hfront
            exact .inr ⟨b, hb, .inl ⟨front, y, back, rfl, hfront, hy⟩⟩

end Except

namespace Attempt

variable {α β : Type} {x : Attempt α} {f : α → Attempt β}

@[simp] theorem outcome_pure (a : α) : (pure a : Attempt α).outcome = .ok a := rfl

@[simp] theorem outcome_fail (e : ModelFault) : (fail e : Attempt α).outcome = .error e := rfl

@[simp] theorem outcome_ofExcept (y : Except ModelFault α) : (ofExcept y).outcome = y := rfl

@[simp] theorem outcome_write (level : LogLevel) (text : String) :
    (write level text).outcome = .ok () := rfl

/-- The outcome of an attempt made of two is that of the one and then of the other. -/
theorem outcome_bind : (x >>= f).outcome = x.outcome >>= fun a => (f a).outcome := by
  simp only [outcome, Logged.value_run_bind]
  cases x.run.value <;> rfl

theorem outcome_bind_of_ok {a : α} (h : x.outcome = .ok a) :
    (x >>= f).outcome = (f a).outcome := by
  rw [outcome_bind, h]
  rfl

theorem outcome_bind_of_error {e : ModelFault} (h : x.outcome = .error e) :
    (x >>= f).outcome = .error e := by
  rw [outcome_bind, h]
  rfl

/-- What follows a line of the log. -/
@[simp] theorem outcome_write_bind (level : LogLevel) (text : String) (g : Unit → Attempt β) :
    (write level text >>= g).outcome = (g ()).outcome :=
  outcome_bind_of_ok (outcome_write level text)

theorem outcome_bind_eq_ok_iff {b : β} :
    (x >>= f).outcome = .ok b ↔ ∃ a, x.outcome = .ok a ∧ (f a).outcome = .ok b := by
  rw [outcome_bind, bind_eq_ok_iff]

theorem outcome_bind_eq_error_iff {e : ModelFault} :
    (x >>= f).outcome = .error e ↔
      x.outcome = .error e ∨ ∃ a, x.outcome = .ok a ∧ (f a).outcome = .error e := by
  rw [outcome_bind, bind_eq_error_iff]

/-! ### Lists of attempts -/

theorem outcome_mapM (xs : List α) : (xs.mapM f).outcome = xs.mapM fun x => (f x).outcome := by
  induction xs with
  | nil => rfl
  | cons x xs ih =>
      rw [List.mapM_cons, List.mapM_cons, outcome_bind]
      simp only [outcome_bind, ih, outcome_pure]
      rfl

theorem outcome_mapM_eq_ok_iff {xs : List α} {ys : List β} :
    (xs.mapM f).outcome = .ok ys ↔ List.Forall₂ (fun x y => (f x).outcome = .ok y) xs ys := by
  rw [outcome_mapM, mapM_eq_ok_iff]

/-- The first item with a fault, behind items without one. -/
theorem outcome_mapM_eq_error_iff {xs : List α} {e : ModelFault} :
    (xs.mapM f).outcome = .error e ↔
      ∃ front x back, xs = front ++ x :: back ∧ (∀ y ∈ front, ∃ b, (f y).outcome = .ok b) ∧
        (f x).outcome = .error e := by
  rw [outcome_mapM, mapM_eq_error_iff]

end Attempt

end Galley
