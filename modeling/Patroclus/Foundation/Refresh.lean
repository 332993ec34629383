import Mathlib.Data.List.Nodup
import Mathlib.Logic.Function.Basic

/-!
# A copy that its writers refresh

Many writers share a cell, and a copy that is built from it. Each writer writes the
cell, reads it back, and swaps the copy for what it built from its reading. The three
steps are atomic, but the steps of other writers may come between them, so a reading
can be old when it is swapped in.

In the end the copy is the one that the last swap put there. It is up to date exactly
when what that swap had read builds the same copy as what was written last.
-/

namespace Foundation

/-- A step of a writer. -/
inductive Refresh (ι : Type*) where
  | write (i : ι)
  | read (i : ι)
  | swap (i : ι)
deriving DecidableEq

structure Copied (ι α β : Type*) where
  cell : α
  reading : ι → Option β
  copy : β

variable {ι α β : Type*}

namespace Refresh

def writer : Refresh ι → ι
  | write i | read i | swap i => i

@[simp] theorem writer_write (i : ι) : (write i).writer = i := rfl

@[simp] theorem writer_read (i : ι) : (read i).writer = i := rfl

@[simp] theorem writer_swap (i : ι) : (swap i).writer = i := rfl

def isSwap : Refresh ι → Bool
  | swap _ => true
  | _ => false

/-- What the cell holds after some steps. -/
def written (value : ι → α) : α → List (Refresh ι) → α
  | a, [] => a
  | _, write i :: rest => written value (value i) rest
  | a, _ :: rest => written value a rest

/-- Every writer that takes part takes its three steps, in their order. -/
def Complete [DecidableEq ι] (schedule : List (Refresh ι)) : Prop :=
  ∀ i, schedule.filter (·.writer = i) = [] ∨
    schedule.filter (·.writer = i) = [write i, read i, swap i]

/-- The last element with a property. -/
theorem exists_last {γ : Type*} {p : γ → Bool} {l : List γ} (h : ∃ x ∈ l, p x = true) :
    ∃ before x after, l = before ++ x :: after ∧ p x = true ∧ ∀ y ∈ after, p y = false := by
  have hsome : (l.reverse.find? p).isSome := by
    rw [List.find?_isSome]
    simpa using h
  obtain ⟨x, hx⟩ := Option.isSome_iff_exists.mp hsome
  obtain ⟨hp, after, before, hsplit, hafter⟩ := List.find?_eq_some_iff_append.mp hx
  refine ⟨before.reverse, x, after.reverse, ?_, hp, fun y hy => ?_⟩
  · rw [← List.reverse_reverse l, hsplit]
    simp
  · simpa using hafter y (List.mem_reverse.mp hy)

namespace Complete

variable [DecidableEq ι] {schedule before between after : List (Refresh ι)} {i : ι}

/-- What a complete schedule says about a writer of which it has a step. -/
theorem filter_eq (h : Complete schedule) {step : Refresh ι} (mem : step ∈ schedule) :
    schedule.filter (·.writer = step.writer) =
      [.write step.writer, .read step.writer, .swap step.writer] := by
  apply (h step.writer).resolve_left
  intro hnone
  rw [List.filter_eq_nil_iff] at hnone
  exact hnone step mem (by simp)

/-- Before a writer swaps it has written and read. -/
theorem filter_before (h : Complete (before ++ .swap i :: after)) :
    before.filter (·.writer = i) = [.write i, .read i] := by
  have hmem : .swap i ∈ before ++ .swap i :: after := by simp
  have hfilter := h.filter_eq hmem
  rw [writer_swap, List.filter_append, List.filter_cons_of_pos (by simp)] at hfilter
  match hbefore : before.filter (·.writer = i) with
  | [] =>
      rw [hbefore] at hfilter
      simp at hfilter
  | [first] =>
      rw [hbefore] at hfilter
      simp at hfilter
  | [first, second] =>
      rw [hbefore] at hfilter
      obtain ⟨rfl, hrest⟩ := List.cons.inj hfilter
      obtain ⟨rfl, -⟩ := List.cons.inj hrest
      exact hbefore
  | first :: second :: third :: rest =>
      rw [hbefore] at hfilter
      simp at hfilter

/-- No step is taken twice. -/
theorem nodup (h : Complete schedule) : schedule.Nodup := by
  rw [List.nodup_iff_count_le_one]
  intro step
  by_cases hmem : step ∈ schedule
  · have hsame : schedule.count step = (schedule.filter (·.writer = step.writer)).count step :=
      (List.count_filter (by simp)).symm
    rw [hsame, h.filter_eq hmem]
    cases step <;> simp
  · rw [List.count_eq_zero_of_not_mem hmem]
    exact Nat.zero_le 1

theorem read_not_mem (h : Complete (before ++ .read i :: between ++ .swap i :: after)) :
    .read i ∉ between := by
  intro hmem
  have htail := (List.nodup_append.mp h.nodup).1
  exact (List.nodup_cons.mp (List.nodup_append.mp htail).2.1).1 hmem

/-- The last swap of a complete schedule, and the reading that it puts in place. -/
theorem exists_last_swap (h : Complete schedule) (taken : schedule ≠ []) :
    ∃ before i between after, schedule = before ++ .read i :: between ++ .swap i :: after ∧
      ∀ step ∈ after, step.isSwap = false := by
  have hswap : ∃ step ∈ schedule, step.isSwap = true := by
    obtain ⟨step, hstep⟩ := List.exists_mem_of_ne_nil schedule taken
    have hmem : .swap step.writer ∈ schedule.filter (·.writer = step.writer) := by
      rw [h.filter_eq hstep]
      simp
    exact ⟨_, List.mem_of_mem_filter hmem, rfl⟩
  obtain ⟨before, step, after, rfl, hswap, hlast⟩ := exists_last hswap
  cases step with
  | write i => cases hswap
  | read i => cases hswap
  | swap i =>
      have hread : .read i ∈ before := by
        have hmem : .read i ∈ before.filter (·.writer = i) := by
          rw [h.filter_before]
          simp
        exact List.mem_of_mem_filter hmem
      obtain ⟨first, between, rfl⟩ := List.append_of_mem hread
      exact ⟨first, i, between, after, rfl, hlast⟩

end Complete

end Refresh

namespace Copied

open Refresh

variable [DecidableEq ι] (value : ι → α) (build : α → β)

def step (c : Copied ι α β) : Refresh ι → Copied ι α β
  | .write i => { c with cell := value i }
  | .read i => { c with reading := Function.update c.reading i (some (build c.cell)) }
  | .swap i => { c with copy := (c.reading i).getD c.copy }

def run (c : Copied ι α β) (schedule : List (Refresh ι)) : Copied ι α β :=
  schedule.foldl (step value build) c

variable {value build} {c : Copied ι α β} {schedule before between after : List (Refresh ι)} {i : ι}

theorem run_append (c : Copied ι α β) (before after : List (Refresh ι)) :
    c.run value build (before ++ after) = (c.run value build before).run value build after :=
  List.foldl_append

theorem run_cell : (c.run value build schedule).cell = written value c.cell schedule := by
  induction schedule generalizing c with
  | nil => rfl
  | cons step rest ih =>
      cases step with
      | write i => exact ih
      | read i => exact ih
      | swap i => exact ih

/-- A writer's reading stays until it reads again. -/
theorem run_reading (h : .read i ∉ schedule) :
    (c.run value build schedule).reading i = c.reading i := by
  induction schedule generalizing c with
  | nil => rfl
  | cons step rest ih =>
      obtain ⟨hstep, hrest⟩ := List.ne_and_not_mem_of_not_mem_cons h
      refine (ih hrest).trans ?_
      cases step with
      | write j => rfl
      | read j =>
          have hne : i ≠ j := fun h => hstep (congrArg Refresh.read h)
          exact Function.update_of_ne hne _ _
      | swap j => rfl

/-- The copy stays until the next swap. -/
theorem run_copy (h : ∀ step ∈ schedule, step.isSwap = false) :
    (c.run value build schedule).copy = c.copy := by
  induction schedule generalizing c with
  | nil => rfl
  | cons step rest ih =>
      refine (ih fun next hnext => h next (List.mem_cons_of_mem _ hnext)).trans ?_
      cases step with
      | write j => rfl
      | read j => rfl
      | swap j => exact absurd (h (.swap j) List.mem_cons_self) Bool.true_eq_false.mp

/-- The copy is built from what the writer that swaps last has read. -/
theorem copy_run (hread : .read i ∉ between) (hlast : ∀ step ∈ after, step.isSwap = false) :
    (c.run value build (before ++ .read i :: between ++ .swap i :: after)).copy =
      build (written value c.cell before) := by
  rw [run_append, run_append]
  have hswap (d : Copied ι α β) : (d.run value build (.swap i :: after)).copy =
      (d.reading i).getD d.copy := run_copy hlast
  have hreading (d : Copied ι α β) : (d.run value build (.read i :: between)).reading i =
      some (build d.cell) :=
    (run_reading hread).trans (Function.update_self _ _ _)
  rw [hswap, hreading, Option.getD_some, run_cell]

/-- A copy that is up to date before a complete schedule is up to date after it exactly
if the last swap has read what builds the same as what was written last. -/
theorem copy_eq_iff (complete : Complete schedule) (start : c.copy = build c.cell) :
    (c.run value build schedule).copy = build (c.run value build schedule).cell ↔
      ∀ before i between after, schedule = before ++ .read i :: between ++ .swap i :: after →
        (∀ step ∈ after, step.isSwap = false) →
          build (written value c.cell before) = build (written value c.cell schedule) := by
  rw [run_cell]
  constructor
  · rintro h before i between after rfl hlast
    rwa [copy_run complete.read_not_mem hlast] at h
  · intro h
    by_cases htaken : schedule = []
    · subst htaken
      exact start
    · obtain ⟨before, i, between, after, rfl, hlast⟩ := complete.exists_last_swap htaken
      rw [copy_run complete.read_not_mem hlast]
      exact h before i between after rfl hlast

end Copied

end Foundation
