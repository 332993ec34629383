import Patroclus.Foundation.Action
import Mathlib.Logic.Function.Iterate

/-!
# Actions in stages

An action that is not atomic is given by its stages and the step that follows each of
them. A step that fails ends the action. Taken in a row, the steps make up one action
again, so that a staged action can be compared with the action it was cut from.
-/

namespace Foundation

universe u

namespace Action

variable {σ ε α β : Type u}

/-- Whatever the action returns satisfies a property. -/
def Yields (P : α → Prop) (act : Action σ ε α) : Prop :=
  ∀ s a finish, act s = (.ok a, finish) → P a

namespace Yields

variable {P : α → Prop} {s : σ}

theorem pure {a : α} (h : P a) : Yields P (Pure.pure a : Action σ ε α) := by
  intro s a' finish run
  cases run
  exact h

theorem bind {act : Action σ ε β} {next : β → Action σ ε α} (rest : ∀ b, (next b).Yields P) :
    (act >>= next).Yields P := by
  intro s a finish run
  obtain ⟨b, middle, -, hrest⟩ := bind_ok_iff.mp run
  exact rest b middle a finish hrest

theorem ite {c : Prop} [Decidable c] {yes no : Action σ ε α} (hyes : yes.Yields P)
    (hno : no.Yields P) : (if c then yes else no).Yields P := by
  split
  · exact hyes
  · exact hno

end Yields

end Action

/-- An action in stages: the step that follows each stage, the stages at which the action
has returned or failed, and how many steps there are to go. -/
structure Staged (σ ε φ α : Type u) where
  next : φ → Action σ ε φ
  returned : Except ε α → φ
  answer : φ → Action σ ε α
  left : φ → Nat
  stays : ∀ outcome, next (returned outcome) = pure (returned outcome)
  answers : ∀ outcome, answer (returned outcome) = Action.lift outcome
  falls : ∀ stage, (next stage).Yields fun stage' => left stage' ≤ left stage - 1
  last : ∀ stage, left stage = 0 → ∃ outcome, stage = returned outcome

namespace Staged

variable {σ ε φ α : Type u} (staged : Staged σ ε φ α)

/-- One step; a step that fails ends the action. -/
def advance (own : σ × φ) : σ × φ :=
  match staged.next own.2 own.1 with
  | (.ok stage, s) => (s, stage)
  | (.error e, s) => (s, staged.returned (.error e))

/-- So many steps in a row, and the answer at the stage that they reach. -/
def complete : Nat → φ → Action σ ε α
  | 0, stage => staged.answer stage
  | n + 1, stage => staged.next stage >>= complete n

variable {staged} {n : Nat}

theorem complete_succ (stage : φ) :
    staged.complete (n + 1) stage = staged.next stage >>= staged.complete n := rfl

/-- An action that has returned stays where it is. -/
@[simp] theorem complete_returned (outcome : Except ε α) :
    staged.complete n (staged.returned outcome) = Action.lift outcome := by
  induction n with
  | zero => exact staged.answers outcome
  | succ n ih =>
      rw [complete_succ, staged.stays]
      exact ih

/-- The steps in a row are the steps one by one. -/
theorem complete_eq_iterate (s : σ) (stage : φ) : staged.complete n stage s =
    staged.answer (staged.advance^[n] (s, stage)).2 (staged.advance^[n] (s, stage)).1 := by
  induction n generalizing s stage with
  | zero => rfl
  | succ n ih =>
      rw [Function.iterate_succ_apply, complete_succ, advance]
      rcases hnext : staged.next stage s with ⟨e | stage', s'⟩
      · rw [Action.bind_run_error hnext]
        dsimp only
        rw [← ih, complete_returned]
        rfl
      · rw [Action.bind_run_ok hnext]
        exact ih s' stage'

/-- An action has returned after as many steps as it has to go. -/
theorem left_iterate (own : σ × φ) (enough : staged.left own.2 ≤ n) :
    staged.left (staged.advance^[n] own).2 = 0 := by
  induction n generalizing own with
  | zero => exact Nat.le_zero.mp enough
  | succ n ih =>
      rw [Function.iterate_succ_apply]
      apply ih
      rw [advance]
      rcases hnext : staged.next own.2 own.1 with ⟨e | stage, s⟩
      · have hstays := staged.falls (staged.returned (.error e)) s (staged.returned (.error e)) s
          (by rw [staged.stays]; rfl)
        dsimp only
        omega
      · have hfalls := staged.falls own.2 own.1 stage s hnext
        dsimp only
        omega

/-- The steps one by one reach the outcome and the state of the steps in a row. -/
theorem iterate_advance (s : σ) (stage : φ) (enough : staged.left stage ≤ n) :
    staged.advance^[n] (s, stage) =
      ((staged.complete n stage s).2, staged.returned (staged.complete n stage s).1) := by
  obtain ⟨outcome, hreturned⟩ := staged.last _ (left_iterate (s, stage) enough)
  rw [complete_eq_iterate, hreturned, staged.answers]
  refine Prod.ext ?_ ?_
  · cases outcome with
    | ok a => rfl
    | error e => rfl
  · rw [hreturned]
    cases outcome with
    | ok a => rfl
    | error e => rfl

end Staged

end Foundation
