import Mathlib.Data.List.Induction
import Mathlib.Logic.Function.Basic
import Mathlib.Order.Basic

/-!
# Entries that can be taken once

A store keeps an entry under its key until the entry is taken, replaced, or dropped because
its time has passed. Its log is the list of everything that has been put and taken. As long
as time does not run backwards, the two say the same of every key: what the store hands out
is what the last event on the key has put, if it is still alive.
-/

namespace Foundation.Pending

variable {κ ε τ : Type*}

inductive Op (κ ε : Type*) where
  | put (key : κ) (entry : ε)
  | take (key : κ)

structure Event (κ ε τ : Type*) where
  now : τ
  op : Op κ ε

def Op.key : Op κ ε → κ
  | put key _ => key
  | take key => key

/-- The entry that an event leaves behind. -/
def Op.entry : Op κ ε → Option ε
  | put _ entry => some entry
  | take _ => none

section

variable (live : ε → τ → Bool)

/-- The entries that are alive at a time. -/
def prune (now : τ) (store : κ → Option ε) : κ → Option ε :=
  fun key => (store key).filter (live · now)

variable [DecidableEq κ]

/-- Dead entries are dropped whenever one is put. -/
def step (store : κ → Option ε) (event : Event κ ε τ) : κ → Option ε :=
  match event.op with
  | .put key entry => Function.update (prune live event.now store) key (some entry)
  | .take key => Function.update store key none

/-- What taking the entry of a key gives. -/
def taken (now : τ) (key : κ) (store : κ → Option ε) : Option ε := prune live now store key

def run (log : List (Event κ ε τ)) : κ → Option ε := log.foldl (step live) fun _ => none

/-- The last event on a key. -/
def lastOn (key : κ) (log : List (Event κ ε τ)) : Option (Event κ ε τ) :=
  log.reverse.find? (·.op.key = key)

/-- What the last event on a key has left behind. -/
def left (key : κ) (log : List (Event κ ε τ)) : Option ε :=
  (lastOn key log).bind (·.op.entry)

end

/-- Time does not run backwards. -/
def Ordered [Preorder τ] (log : List (Event κ ε τ)) : Prop := log.Pairwise (·.now ≤ ·.now)

/-- An entry that is alive at a time was alive before. -/
def Mortal [Preorder τ] (live : ε → τ → Bool) : Prop :=
  ∀ entry s t, s ≤ t → live entry t = true → live entry s = true

section

variable {live : ε → τ → Bool} {key : κ} {entry : ε} {store : κ → Option ε} {now : τ}

theorem prune_eq_some :
    prune live now store key = some entry ↔ store key = some entry ∧ live entry now = true :=
  Option.filter_eq_some_iff

/-- Pruning takes nothing away that is alive later. -/
theorem prune_prune [Preorder τ] (mortal : Mortal live) {later : τ} (le : now ≤ later) :
    prune live later (prune live now store) = prune live later store := by
  funext key
  apply Option.ext
  intro entry
  rw [prune_eq_some, prune_eq_some, prune_eq_some]
  constructor
  · rintro ⟨⟨hheld, -⟩, halive⟩
    exact ⟨hheld, halive⟩
  · rintro ⟨hheld, halive⟩
    exact ⟨⟨hheld, mortal entry now later le halive⟩, halive⟩

variable [DecidableEq κ] {log : List (Event κ ε τ)} {event : Event κ ε τ}

theorem lastOn_concat : lastOn key (log ++ [event]) =
    if event.op.key = key then some event else lastOn key log := by
  rw [lastOn, List.reverse_append, List.reverse_singleton, List.singleton_append, List.find?_cons]
  by_cases hkey : event.op.key = key
  · simp [hkey]
  · simp [hkey, lastOn]

theorem left_concat : left key (log ++ [event]) =
    if event.op.key = key then event.op.entry else left key log := by
  rw [left, lastOn_concat]
  split
  · rfl
  · rfl

theorem left_eq_some : left key log = some entry ↔
    ∃ event, lastOn key log = some event ∧ event.op = .put key entry := by
  rw [left, Option.bind_eq_some_iff]
  refine exists_congr fun event => and_congr_right fun hlast => ?_
  have hkey : event.op.key = key := by simpa using List.find?_some hlast
  cases hop : event.op with
  | put key' entry' =>
      rw [hop] at hkey
      simp [Op.entry, show key' = key from hkey]
  | take key' => simp [Op.entry]

theorem run_concat : run live (log ++ [event]) = step live (run live log) event := by
  rw [run, List.foldl_append]
  rfl

/-- Right after an entry has been put, none is left that was dead by then. -/
theorem live_of_step_put {fresh : ε} (op : event.op = .put key fresh)
    (alive : live fresh event.now = true) {key' : κ}
    (held : step live store event key' = some entry) :
    live entry event.now = true := by
  rw [step, op] at held
  change Function.update (prune live event.now store) key (some fresh) key' = some entry at held
  by_cases hkey : key' = key
  · rw [hkey, Function.update_self] at held
    rw [← Option.some.inj held]
    exact alive
  · rw [Function.update_of_ne hkey] at held
    exact (prune_eq_some.mp held).2

variable [Preorder τ] (mortal : Mortal live)

include mortal

/-- One event changes what is alive under its own key only. -/
theorem prune_step {later : τ} (le : event.now ≤ later) :
    prune live later (step live store event) key =
      if event.op.key = key then event.op.entry.filter (live · later)
      else prune live later store key := by
  rw [step]
  cases hop : event.op with
  | put key' entry' =>
      show ((Function.update (prune live event.now store) key' (some entry')) key).filter _ =
        if key' = key then (some entry').filter _ else _
      by_cases hkey : key' = key
      · rw [if_pos hkey, hkey, Function.update_self]
      · rw [if_neg hkey, Function.update_of_ne (Ne.symm hkey)]
        exact congrFun (prune_prune mortal le) key
  | take key' =>
      show ((Function.update store key' none) key).filter _ = if key' = key then _ else _
      by_cases hkey : key' = key
      · rw [if_pos hkey, hkey, Function.update_self]
        rfl
      · rw [if_neg hkey, Function.update_of_ne (Ne.symm hkey)]
        rfl

/-- After every run, what is alive under a key is what the log has left there. -/
theorem prune_run (ordered : Ordered log) (past : ∀ event ∈ log, event.now ≤ now) :
    prune live now (run live log) key = (left key log).filter (live · now) := by
  induction log using List.reverseRecOn generalizing now with
  | nil => rfl
  | append_singleton log event ih =>
      obtain ⟨hordered, -, hbefore⟩ := List.pairwise_append.mp ordered
      have hearlier (earlier : Event κ ε τ) (h : earlier ∈ log) : earlier.now ≤ now :=
        past earlier (List.mem_append_left _ h)
      have hevent : event.now ≤ now :=
        past event (List.mem_append_right _ (List.mem_singleton_self _))
      rw [run_concat, left_concat, prune_step mortal hevent, ih hordered hearlier]
      split
      · rfl
      · rfl

/-- An entry is handed out exactly if the last event on its key has put it and it is alive. -/
theorem taken_run_eq_some (ordered : Ordered log) (past : ∀ event ∈ log, event.now ≤ now) :
    taken live now key (run live log) = some entry ↔
      (∃ event, lastOn key log = some event ∧ event.op = .put key entry) ∧
        live entry now = true := by
  rw [taken, prune_run mortal ordered past, Option.filter_eq_some_iff, left_eq_some]

/-- An entry that is alive and has been neither taken nor replaced is held. -/
theorem run_of_left (ordered : Ordered log) (past : ∀ event ∈ log, event.now ≤ now)
    (put : ∃ event, lastOn key log = some event ∧ event.op = .put key entry)
    (alive : live entry now = true) : run live log key = some entry :=
  (prune_eq_some.mp ((taken_run_eq_some mortal ordered past).mpr ⟨put, alive⟩)).1

/-- Between two events that hand out an entry of the same key, one has been put there. -/
theorem put_between {before between : List (Event κ ε τ)} {take : Event κ ε τ}
    (ordered : Ordered (before ++ take :: between))
    (past : ∀ event ∈ before ++ take :: between, event.now ≤ now) (op : take.op = .take key)
    (again : taken live now key (run live (before ++ take :: between)) = some entry) :
    ∃ event ∈ between, event.op = .put key entry := by
  obtain ⟨⟨event, hlast, hput⟩, -⟩ := (taken_run_eq_some mortal ordered past).mp again
  refine ⟨event, ?_, hput⟩
  rw [lastOn, List.reverse_append, List.reverse_cons, List.append_assoc, List.find?_append,
    List.singleton_append, List.find?_cons_of_pos (by simp [op, Op.key])] at hlast
  cases hbetween : between.reverse.find? (fun event => decide (event.op.key = key)) with
  | none =>
      rw [hbetween, Option.none_or] at hlast
      rw [← Option.some.inj hlast, op] at hput
      cases hput
  | some found =>
      rw [hbetween, Option.some_or] at hlast
      rw [← Option.some.inj hlast]
      exact List.mem_reverse.mp (List.mem_of_find?_eq_some hbetween)

end

end Foundation.Pending
