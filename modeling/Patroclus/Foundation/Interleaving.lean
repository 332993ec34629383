import Mathlib.Data.Finset.Card
import Mathlib.Data.Fintype.Basic
import Mathlib.Logic.Function.Iterate

/-!
# Interleaved tasks

Tasks over a shared state, each with a local state of its own. A schedule lists whose
atomic step is next; a step sees the shared state and the local state of its task, and
nothing of the others. A quota that the tasks check in one step and draw on in a later one is
kept as long as each step accounts for what its task has been promised.
-/

namespace Foundation

/-- A shared state with the local states of the tasks. -/
structure Pool {ι : Type*} (σ : Type*) (τ : ι → Type*) where
  shared : σ
  tasks : ∀ i, τ i

namespace Pool

variable {ι σ : Type*} {τ : ι → Type*} [DecidableEq ι] (advance : ∀ i, σ → τ i → σ × τ i)

/-- One atomic step of a task. -/
def step (pool : Pool σ τ) (i : ι) : Pool σ τ where
  shared := (advance i pool.shared (pool.tasks i)).1
  tasks := Function.update pool.tasks i (advance i pool.shared (pool.tasks i)).2

def run (pool : Pool σ τ) (schedule : List ι) : Pool σ τ := schedule.foldl (step advance) pool

variable {advance} {pool : Pool σ τ} {schedule : List ι} {i j : ι}

@[simp] theorem step_tasks_self : (pool.step advance i).tasks i =
    (advance i pool.shared (pool.tasks i)).2 :=
  Function.update_self _ _ _

theorem step_tasks_of_ne (h : j ≠ i) : (pool.step advance i).tasks j = pool.tasks j :=
  Function.update_of_ne h _ _

/-! ## A quota that is checked first and drawn on later -/

/-- What a task holds of a quota: nothing, a place that it has been promised, or one that
has been counted. -/
inductive Place where
  | none
  | promised
  | counted
deriving DecidableEq

/-- What a step may do to the counter of a quota and to the place of its task, with so many
places promised. A place is promised only while there is one left. -/
inductive Draws (quota promised count count' : ℕ) : Place → Place → Prop
  | keeps {place : Place} (grows : count ≤ count') : Draws quota promised count count' place place
  | drops {place : Place} (grows : count ≤ count') : Draws quota promised count count' place .none
  | promises (grows : count ≤ count') (room : count + promised < quota) :
      Draws quota promised count count' .none .promised
  | counts (grows : count < count') : Draws quota promised count count' .promised .counted

section

variable [Fintype ι] (place : ∀ i, τ i → Place)

/-- How many tasks have a place. -/
def holders (held : Place) (pool : Pool σ τ) : ℕ :=
  (Finset.univ.filter fun i => place i (pool.tasks i) = held).card

/-- The counter covers the counted places, and no more places are held than there are. -/
structure WithinQuota (quota : ℕ) (count : σ → ℕ) (pool : Pool σ τ) : Prop where
  covered : holders place .counted pool ≤ count pool.shared
  within : holders place .promised pool + holders place .counted pool ≤ quota

variable {place} {quota : ℕ} {count : σ → ℕ}

/-- The holders, with one task counted apart. -/
theorem holders_eq_add (held : Place) (pool : Pool σ τ) (i : ι) : holders place held pool =
    ((Finset.univ.erase i).filter fun j => place j (pool.tasks j) = held).card +
      if place i (pool.tasks i) = held then 1 else 0 := by
  have hapart : i ∉ (Finset.univ.erase i).filter fun j => place j (pool.tasks j) = held :=
    fun h => Finset.notMem_erase i _ (Finset.mem_of_mem_filter i h)
  rw [holders, ← Finset.insert_erase (Finset.mem_univ i), Finset.filter_insert]
  split
  · rw [Finset.card_insert_of_notMem hapart, Finset.erase_insert (Finset.notMem_erase i _)]
  · rw [Finset.erase_insert (Finset.notMem_erase i _), Nat.add_zero]

variable (advance place) in
/-- A step moves its own task from one place to another. -/
theorem holders_step (held : Place) (pool : Pool σ τ) (i : ι) :
    holders place held (pool.step advance i) +
        (if place i (pool.tasks i) = held then 1 else 0) =
      holders place held pool +
        if place i ((pool.step advance i).tasks i) = held then 1 else 0 := by
  have hothers : ((Finset.univ.erase i).filter fun j =>
      place j ((pool.step advance i).tasks j) = held) =
      (Finset.univ.erase i).filter fun j => place j (pool.tasks j) = held := by
    apply Finset.filter_congr
    intro j hj
    rw [step_tasks_of_ne (Finset.ne_of_mem_erase hj)]
  rw [holders_eq_add held _ i, holders_eq_add held pool i, hothers]
  omega

/-- A step that draws on the quota in this manner stays within it. -/
theorem WithinQuota.step (h : WithinQuota place quota count pool)
    (draws : Draws quota (holders place .promised pool) (count pool.shared)
      (count (pool.step advance i).shared) (place i (pool.tasks i))
      (place i ((pool.step advance i).tasks i))) :
    WithinQuota place quota count (pool.step advance i) := by
  obtain ⟨hcovered, hwithin⟩ := h
  have hpromised := holders_step advance place .promised pool i
  have hcounted := holders_step advance place .counted pool i
  generalize place i (pool.tasks i) = before at draws hpromised hcounted
  generalize place i ((pool.step advance i).tasks i) = after at draws hpromised hcounted
  cases draws with
  | keeps grows => exact ⟨by omega, by omega⟩
  | drops grows =>
      simp only [reduceCtorEq, if_false] at hpromised hcounted
      exact ⟨by omega, by omega⟩
  | promises grows room =>
      simp only [reduceCtorEq, if_true, if_false] at hpromised hcounted
      exact ⟨by omega, by omega⟩
  | counts grows =>
      simp only [reduceCtorEq, if_true, if_false] at hpromised hcounted
      exact ⟨by omega, by omega⟩

end

end Pool

end Foundation
