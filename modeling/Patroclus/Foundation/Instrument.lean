import Patroclus.Foundation.Action
import Mathlib.Algebra.Order.Group.Int

/-!
# Actions that count what they do

Counters beside the state of a program, which it writes and never reads. `Erases` says
that an instrumented action does what the bare action does. `Moves` compares a counter
with what it counts: an execution that returns moves the balance of the two by a fixed
amount, and one that fails leaves it behind by no more than a bound.
-/

namespace Foundation

namespace Action

universe u

variable {σ μ ε α β : Type u}

/-- An action that leaves the counters alone. -/
def uncounted (act : Action σ ε α) : Action (σ × μ) ε α := fun s =>
  ((act s.1).1, (act s.1).2, s.2)

/-- Update the counters. -/
def count (update : μ → μ) : Action (σ × μ) ε PUnit := write fun s => (s.1, update s.2)

/-! ## Erasure -/

/-- But for its counters, `counted` is `act`. -/
def Erases (counted : Action (σ × μ) ε α) (act : Action σ ε α) : Prop :=
  ∀ s, ((counted s).1, (counted s).2.1) = act s.1

namespace Erases

variable {counted : Action (σ × μ) ε α} {act : Action σ ε α}

theorem uncounted (act : Action σ ε α) : (act.uncounted : Action (σ × μ) ε α).Erases act :=
  fun _ => rfl

theorem pure (a : α) : (Pure.pure a : Action (σ × μ) ε α).Erases (Pure.pure a) := fun _ => rfl

theorem bind {rest : α → Action (σ × μ) ε β} {next : α → Action σ ε β} (first : counted.Erases act)
    (tail : ∀ a, (rest a).Erases (next a)) : (counted >>= rest).Erases (act >>= next) := by
  intro s
  have hfirst := first s
  rcases hcounted : counted s with ⟨outcome, middle⟩
  rw [hcounted] at hfirst
  cases outcome with
  | ok a =>
      rw [bind_run_ok hcounted, bind_run_ok hfirst.symm]
      exact tail a middle
  | error e => rw [bind_run_error hcounted, bind_run_error hfirst.symm]

theorem count_bind {update : μ → μ} {rest : PUnit → Action (σ × μ) ε α}
    (h : (rest ⟨⟩).Erases act) : (count update >>= rest).Erases act :=
  fun s => h (s.1, update s.2)

theorem ite {c : Prop} [Decidable c] {yes no : Action (σ × μ) ε α} {yes' no' : Action σ ε α}
    (hyes : yes.Erases yes') (hno : no.Erases no') :
    (if c then yes else no).Erases (if c then yes' else no') := by
  split
  · exact hyes
  · exact hno

end Erases

/-! ## Balances -/

/-- An execution that returns moves the balance by `d`; a failed one lowers it by `e` at most
and does not raise it. -/
def Moves (balance : σ → ℤ) (d : ℤ) (e : ℕ) (act : Action σ ε α) : Prop :=
  ∀ s, match (act s).1 with
    | .ok _ => balance (act s).2 = balance s + d
    | .error _ => balance s - e ≤ balance (act s).2 ∧ balance (act s).2 ≤ balance s

namespace Moves

variable {balance : σ → ℤ} {act : Action σ ε α} {d d' : ℤ} {e e' e'' : ℕ}

theorem of_keeps (h : act.Keeps balance) : act.Moves balance 0 e := by
  intro s
  rw [h s]
  split
  · exact (add_zero _).symm
  · exact ⟨by omega, le_rfl⟩

theorem write {update : σ → σ} (h : ∀ s, balance (update s) = balance s + d) :
    (Action.write update : Action σ ε PUnit).Moves balance d e := h

/-- A failure after the first action pays for what the first action has moved. -/
theorem bind {next : α → Action σ ε β} (first : act.Moves balance d e)
    (rest : ∀ a, (next a).Moves balance d' e') (down : d ≤ 0) (le : e ≤ e'')
    (le' : e' - d ≤ e'') : (act >>= next).Moves balance (d + d') e'' := by
  intro s
  have hfirst := first s
  rcases hact : act s with ⟨outcome, middle⟩
  rw [hact] at hfirst
  cases outcome with
  | error err =>
      rw [bind_run_error hact]
      dsimp only at hfirst ⊢
      omega
  | ok a =>
      have hrest := rest a middle
      rw [bind_run_ok hact]
      dsimp only at hfirst
      split
      · rename_i hok
        rw [hok] at hrest
        dsimp only at hrest
        omega
      · rename_i herror
        rw [herror] at hrest
        dsimp only at hrest
        omega

/-- A first action that leaves the balance alone. -/
theorem keeps_bind {next : α → Action σ ε β} (first : act.Keeps balance)
    (rest : ∀ a, (next a).Moves balance d e) : (act >>= next).Moves balance d e := by
  have h := bind (of_keeps first (e := 0)) rest le_rfl (Nat.zero_le e) (by omega)
  rwa [zero_add] at h

/-- What wraps up the result of an action moves nothing. -/
theorem bind_pure (h : act.Moves balance d e) (f : α → β) :
    (act >>= fun a => Pure.pure (f a)).Moves balance d e := by
  intro s
  have hact := h s
  rcases hrun : act s with ⟨outcome, middle⟩
  rw [hrun] at hact
  cases outcome with
  | ok a =>
      rw [bind_run_ok hrun]
      exact hact
  | error err =>
      rw [bind_run_error hrun]
      exact hact

theorem ite {c : Prop} [Decidable c] {yes no : Action σ ε α} (hyes : yes.Moves balance d e)
    (hno : no.Moves balance d e) : (if c then yes else no).Moves balance d e := by
  split
  · exact hyes
  · exact hno

/-- What an action moves beside counters that it does not see. -/
theorem uncounted (h : act.Moves balance d e) (counter : μ → ℤ) :
    (act.uncounted : Action (σ × μ) ε α).Moves (fun s => balance s.1 - counter s.2) d e := by
  intro s
  have hact := h s.1
  have hrun : (act.uncounted : Action (σ × μ) ε α) s = ((act s.1).1, ((act s.1).2, s.2)) := rfl
  rw [hrun]
  dsimp only
  split
  · rename_i hok
    rw [hok] at hact
    dsimp only at hact
    omega
  · rename_i herror
    rw [herror] at hact
    dsimp only at hact
    omega

end Moves

/-- The counters are beside a sequence when they are beside its parts. -/
theorem uncounted_bind (act : Action σ ε α) (next : α → Action σ ε β) :
    ((act >>= next).uncounted : Action (σ × μ) ε β) =
      act.uncounted >>= fun a => (next a).uncounted := by
  funext s
  rcases hact : act s.1 with ⟨outcome, middle⟩
  have hrun : (act.uncounted : Action (σ × μ) ε α) s = (outcome, (middle, s.2)) :=
    congrArg (fun result => (result.1, (result.2, s.2))) hact
  cases outcome with
  | ok a =>
      rw [bind_run_ok hrun, Action.uncounted, bind_run_ok hact]
      rfl
  | error err =>
      rw [bind_run_error hrun, Action.uncounted, bind_run_error hact]

/-- Counting changes nothing but the counters. -/
theorem Keeps.count {γ : Type*} {view : σ → γ} (update : μ → μ) :
    (count update : Action (σ × μ) ε PUnit).Keeps fun s => view s.1 := fun _ => rfl

/-- What an action keeps of the state, it keeps beside counters. -/
theorem Keeps.uncounted {γ δ : Type*} {view : σ → γ} {act : Action σ ε α} (h : act.Keeps view)
    (f : γ → μ → δ) :
    (act.uncounted : Action (σ × μ) ε α).Keeps fun s => f (view s.1) s.2 :=
  fun s => congrArg (f · s.2) (h s.1)

end Action

end Foundation
