import Mathlib

/-!
# Checks that stop at the first failure

The library's readers and validators are chains of checks in `Except`: each step runs only when
the steps before it succeeded, and the first failure is the result. This module says once what
such chains do, so that the statements about a particular reader are proved from the checks it
makes and not by unfolding the monad.

* A sequence succeeds exactly when its first step does and the rest succeeds on that step's
  result (`bind_eq_ok_iff`); a mapped computation succeeds exactly when the computation does
  (`map_eq_ok_iff`); a thrown error is no success (`throw_ne_ok`); a check that throws on a
  condition passes exactly when the condition fails (`guard_bind_eq_ok_iff`, `guard_eq_ok_iff`).
* A traversal succeeds exactly when every element does, with the results in order
  (`mapM_eq_ok_iff`, `mapM_eq_ok_iff_getElem`), and otherwise fails with the failure of the first
  element that fails (`mapM_eq_error_iff`). A list written item by item is read back item by
  item (`mapM_map_inverse`), and a traversal that joins lists joins the results
  (`flatMapM_eq_ok`).
-/

namespace VoiceBench

variable {ε α β : Type}

/-! ## Sequences of checks -/

/-- A sequence succeeds exactly when its first step does and the rest succeeds on that
step's result. -/
theorem bind_eq_ok_iff {x : Except ε α} {f : α → Except ε β} {b : β} :
    x >>= f = .ok b ↔ ∃ a, x = .ok a ∧ f a = .ok b := by
  cases x <;> simp [bind, Except.bind]

/-- A mapped computation succeeds exactly when the computation does. -/
theorem map_eq_ok_iff {f : α → β} {x : Except ε α} {b : β} :
    f <$> x = .ok b ↔ ∃ a, x = .ok a ∧ f a = b := by
  cases x <;> simp [Functor.map, Except.map]

/-- A thrown error is no success. -/
theorem throw_ne_ok {e : ε} {a : α} : (throw e : Except ε α) ≠ .ok a := by
  simp [throw, throwThe, MonadExceptOf.throw]

/-- A check that throws on a condition and otherwise goes on succeeds exactly when the
condition fails and the rest succeeds. -/
theorem guard_bind_eq_ok_iff {p : Prop} [Decidable p] {e : ε} {k : Unit → Except ε β} {b : β} :
    (if p then throw e >>= k else k ()) = .ok b ↔ ¬p ∧ k () = .ok b := by
  by_cases hp : p <;> simp [hp, throw, throwThe, MonadExceptOf.throw, bind, Except.bind]

/-- A last check that throws on a condition succeeds exactly when the condition fails. -/
theorem guard_eq_ok_iff {p : Prop} [Decidable p] {e : ε} :
    (if p then throw e else pure ()) = (.ok () : Except ε Unit) ↔ ¬p := by
  by_cases hp : p <;> simp [hp, throw, throwThe, MonadExceptOf.throw, pure, Except.pure]

/-! ## Traversals -/

section Traverse
variable {f : α → Except ε β}

/-- A traversal succeeds exactly when every element does, with the results in order. -/
theorem mapM_eq_ok_iff {xs : List α} {ys : List β} :
    xs.mapM f = .ok ys ↔ List.Forall₂ (fun x y => f x = .ok y) xs ys := by
  induction xs generalizing ys with
  | nil => cases ys <;> simp [pure, Except.pure]
  | cons x xs ih =>
    rw [List.mapM_cons]
    cases hx : f x with
    | error e => cases ys <;> simp [bind, Except.bind, hx]
    | ok y =>
      cases hxs : xs.mapM f with
      | error e => cases ys <;> simp [bind, Except.bind, ← ih, hxs, hx]
      | ok ys' => cases ys <;> simp [bind, Except.bind, pure, Except.pure, ← ih, hxs, hx]

/-- A traversal succeeds exactly when every element does, the `k`-th result being that of the
`k`-th element. -/
theorem mapM_eq_ok_iff_getElem {xs : List α} {ys : List β} :
    xs.mapM f = .ok ys ↔ xs.length = ys.length ∧
      ∀ k (hx : k < xs.length) (hy : k < ys.length), f xs[k] = .ok ys[k] := by
  rw [mapM_eq_ok_iff, List.forall₂_iff_get]
  simp

/-- A traversal fails exactly when some element fails while every element before it
succeeds, and the failure is that element's. -/
theorem mapM_eq_error_iff {xs : List α} {e : ε} :
    xs.mapM f = .error e ↔ ∃ k, ∃ hk : k < xs.length,
      (∀ j (hj : j < k), ∃ y, f xs[j] = .ok y) ∧ f xs[k] = .error e := by
  induction xs with
  | nil => simp [pure, Except.pure]
  | cons x xs ih =>
    rw [List.mapM_cons]
    cases hx : f x with
    | error e' =>
      simp only [bind, Except.bind, Except.error.injEq]
      constructor
      · rintro rfl
        exact ⟨0, by simp, fun j hj => absurd hj (Nat.not_lt_zero j), by simpa using hx⟩
      · rintro ⟨k, hk, hbefore, hk'⟩
        cases k with
        | zero => simpa [hx] using hk'
        | succ k =>
          obtain ⟨y, hy⟩ := hbefore 0 (Nat.succ_pos k)
          simp [hx] at hy
    | ok y =>
      cases hxs : xs.mapM f with
      | error e' =>
        simp only [bind, Except.bind]
        rw [← hxs, ih]
        constructor
        · rintro ⟨k, hk, hbefore, hk'⟩
          refine ⟨k + 1, by simpa using hk, fun j hj => ?_, by simpa using hk'⟩
          cases j with
          | zero => exact ⟨y, by simpa using hx⟩
          | succ j => simpa using hbefore j (by omega)
        · rintro ⟨k, hk, hbefore, hk'⟩
          cases k with
          | zero => simp [hx] at hk'
          | succ k =>
            exact ⟨k, by simpa using hk, fun j hj => by simpa using hbefore (j + 1) (by omega),
              by simpa using hk'⟩
      | ok ys =>
        simp only [bind, Except.bind, pure, Except.pure, reduceCtorEq, false_iff]
        rintro ⟨k, hk, -, hk'⟩
        have hok := (mapM_eq_ok_iff_getElem.1 hxs)
        cases k with
        | zero => simp [hx] at hk'
        | succ k =>
          have := hok.2 k (by simpa using hk) (by simp at hk; omega)
          simp [this] at hk'

end Traverse

/-- A list written item by item is read back item by item, when each item is. -/
theorem mapM_map_inverse {f : α → β} {g : β → Except ε α} {xs : List α}
    (h : ∀ x ∈ xs, g (f x) = .ok x) : (xs.map f).mapM g = .ok xs := by
  rw [mapM_eq_ok_iff, List.forall₂_map_left_iff, List.forall₂_same]
  exact h

/-- A traversal that succeeds on every element joins the results in order. -/
theorem flatMapM_eq_ok {f : α → Except ε (List β)} {g : α → List β} {xs : List α}
    (h : ∀ x ∈ xs, f x = .ok (g x)) : xs.flatMapM f = .ok (xs.flatMap g) := by
  induction xs with
  | nil => rfl
  | cons x xs ih =>
    rw [List.flatMapM_cons, h x List.mem_cons_self,
      ih fun y hy => h y (List.mem_cons_of_mem x hy)]
    rfl

end VoiceBench
