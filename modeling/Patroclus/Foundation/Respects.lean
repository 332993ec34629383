import Patroclus.Foundation.Action

/-!
# Two executions of one action

An action respects a relation between states when it cannot tell related states
apart: from two of them it returns the same, and ends in related states again.
The states may differ in whatever the relation does not mention, and the action
may write there, but nothing of it is let through. There is one rule for each
combinator, as for the frame judgment of a single execution.
-/

namespace Foundation

universe u

namespace Action

variable {σ ε α β : Type u} {alike : σ → σ → Prop}

/-- Related states have the same outcome and are still related after it. -/
def Respects (alike : σ → σ → Prop) (act : Action σ ε α) : Prop :=
  ∀ s s', alike s s' → (act s).1 = (act s').1 ∧ alike (act s).2 (act s').2

namespace Respects

theorem pure (a : α) : Respects alike (Pure.pure a : Action σ ε α) := fun _ _ h => ⟨rfl, h⟩

theorem fail (e : ε) : Respects alike (Action.fail e : Action σ ε α) := fun _ _ h => ⟨rfl, h⟩

theorem read {observe : σ → α} (h : ∀ s s', alike s s' → observe s = observe s') :
    Respects alike (Action.read observe : Action σ ε α) := fun s s' halike =>
  ⟨congrArg Except.ok (h s s' halike), halike⟩

theorem write {update : σ → σ} (h : ∀ s s', alike s s' → alike (update s) (update s')) :
    Respects alike (Action.write update : Action σ ε PUnit) := fun s s' halike =>
  ⟨rfl, h s s' halike⟩

theorem lift (value : Except ε α) : Respects alike (Action.lift value : Action σ ε α) := by
  cases value with
  | ok a => exact pure a
  | error e => exact fail e

theorem attempt {act : Action σ ε α} (h : act.Respects alike) : act.attempt.Respects alike := by
  intro s s' halike
  obtain ⟨houtcome, hafter⟩ := h s s' halike
  exact ⟨congrArg Except.ok houtcome, hafter⟩

/-- Sequencing, when the continuation respects the relation for every result that the
first action has from related states. -/
theorem bind_of {act : Action σ ε α} {next : α → Action σ ε β} (first : act.Respects alike)
    (rest : ∀ a s s', alike s s' → (act s).1 = .ok a → (next a).Respects alike) :
    (act >>= next).Respects alike := by
  intro s s' halike
  obtain ⟨houtcome, hmiddle⟩ := first s s' halike
  have hrest := fun a => rest a s s' halike
  rcases hact : act s with ⟨outcome, middle⟩
  rcases hact' : act s' with ⟨outcome', middle'⟩
  rw [hact, hact'] at houtcome hmiddle
  rw [hact] at hrest
  obtain rfl : outcome = outcome' := houtcome
  cases outcome with
  | ok a =>
      rw [bind_run_ok hact, bind_run_ok hact']
      exact hrest a rfl middle middle' hmiddle
  | error e =>
      rw [bind_run_error hact, bind_run_error hact']
      exact ⟨rfl, hmiddle⟩

theorem bind {act : Action σ ε α} {next : α → Action σ ε β} (first : act.Respects alike)
    (rest : ∀ a, (next a).Respects alike) : (act >>= next).Respects alike :=
  first.bind_of fun a _ _ _ _ => rest a

theorem ite {c : Prop} [Decidable c] {yes no : Action σ ε α} (hyes : yes.Respects alike)
    (hno : no.Respects alike) : (if c then yes else no).Respects alike := by
  split
  · exact hyes
  · exact hno

/-- The result of an action may be dropped when only whether it fails is respected. -/
theorem discard {act : Action σ ε α} {b : β}
    (h : ∀ s s', alike s s' → (act s).1.map (fun _ => b) = (act s').1.map (fun _ => b) ∧
      alike (act s).2 (act s').2) : (act >>= fun _ => Pure.pure b).Respects alike := by
  have hrun (s : σ) : (act >>= fun _ => Pure.pure b) s = ((act s).1.map fun _ => b, (act s).2) := by
    rcases hact : act s with ⟨result, finish⟩
    cases result with
    | ok a => exact bind_run_ok hact
    | error e => exact bind_run_error hact
  intro s s' halike
  rw [hrun, hrun]
  exact h s s' halike

end Respects

end Action

end Foundation
