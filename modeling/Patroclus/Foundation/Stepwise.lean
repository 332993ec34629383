import Patroclus.Foundation.Action
import Mathlib.Logic.Relation

/-!
# Actions as sequences of atomic steps

An action that is made of many small writes reaches its final state through the
states between them, and a failure leaves it in one of these. `Stepwise step view`
says that what a view sees of an execution is a sequence of steps of a relation,
whether the action returns or fails. A property that every step keeps is then kept
by the action, and one that holds between the ends of every step, if it is
reflexive and transitive, holds between the ends of the action.
-/

namespace Foundation

universe u

/-! ## Sequences of steps -/

section

variable {V : Type*} {step : V → V → Prop} {v w : V}

/-- What every step keeps, a sequence of steps keeps. -/
theorem keeps_of_steps {I : V → Prop} (preserved : ∀ v w, step v w → I v → I w)
    (steps : Relation.ReflTransGen step v w) (start : I v) : I w := by
  induction steps with
  | refl => exact start
  | tail _ hstep ih => exact preserved _ _ hstep ih

/-- What holds between the ends of every step holds between the ends of a sequence. -/
theorem relates_of_steps {R : V → V → Prop} (refl : ∀ v, R v v)
    (trans : ∀ u v w, R u v → R v w → R u w) (imp : ∀ v w, step v w → R v w)
    (steps : Relation.ReflTransGen step v w) : R v w := by
  induction steps with
  | refl => exact refl v
  | tail _ hstep ih => exact trans _ _ _ ih (imp _ _ hstep)

end

/-! ## Actions -/

namespace Action

variable {σ ε α β : Type u} {V : Type*}

/-- No execution of `act` does more to `view` than take steps. -/
def Stepwise (step : V → V → Prop) (view : σ → V) (act : Action σ ε α) : Prop :=
  ∀ s, Relation.ReflTransGen step (view s) (view (act s).2)

namespace Stepwise

variable {step : V → V → Prop} {view : σ → V} {act : Action σ ε α}

theorem of_keeps (h : act.Keeps view) : act.Stepwise step view := by
  intro s
  rw [h s]

theorem pure (a : α) : (Pure.pure a : Action σ ε α).Stepwise step view :=
  of_keeps (Keeps.pure a)

theorem fail (e : ε) : (Action.fail e : Action σ ε α).Stepwise step view :=
  of_keeps (Keeps.fail e)

/-- An action that takes at most one step. -/
theorem of_step (h : ∀ s, view (act s).2 = view s ∨ step (view s) (view (act s).2)) :
    act.Stepwise step view := by
  intro s
  obtain hkept | hstep := h s
  · rw [hkept]
  · exact .single hstep

theorem attempt (h : act.Stepwise step view) : act.attempt.Stepwise step view := h

theorem bind {next : α → Action σ ε β} (first : act.Stepwise step view)
    (rest : ∀ a, (next a).Stepwise step view) : (act >>= next).Stepwise step view := by
  intro s
  have hfirst := first s
  rcases hact : act s with ⟨outcome, middle⟩
  rw [hact] at hfirst
  cases outcome with
  | ok a =>
      rw [bind_run_ok hact]
      exact hfirst.trans (rest a middle)
  | error e =>
      rw [bind_run_error hact]
      exact hfirst

theorem ite {c : Prop} [Decidable c] {yes no : Action σ ε α} (hyes : yes.Stepwise step view)
    (hno : no.Stepwise step view) : (if c then yes else no).Stepwise step view := by
  split
  · exact hyes
  · exact hno

theorem mapM {f : β → Action σ ε α} (h : ∀ b, (f b).Stepwise step view) (xs : List β) :
    (xs.mapM f).Stepwise step view := by
  have loop (done : List α) : (List.mapM.loop f xs done).Stepwise step view := by
    induction xs generalizing done with
    | nil => exact .pure _
    | cons x xs ih => exact (h x).bind fun a => ih (a :: done)
  exact loop []

/-- Steps that a coarser relation also allows. -/
theorem mono {step' : V → V → Prop} (h : act.Stepwise step view)
    (imp : ∀ v v', step v v' → step' v v') : act.Stepwise step' view :=
  fun s => Relation.ReflTransGen.mono imp _ _ (h s)

end Stepwise

end Action

end Foundation
