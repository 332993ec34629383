import Patroclus.Foundation.Pending
import Patroclus.Idp

/-!
# Single use of login states

The store of pending authorizations drops expired entries when it is written to, and
removes what it hands out. None of this shows: at any time it answers as its whole history
says, by the last call on a state and the time that has passed since.
-/

namespace Patroclus

open Foundation

inductive PkceCall where
  | insert (state providerName codeVerifier : String)
  | consume (state : String)
deriving DecidableEq, Repr

/-- A call with the clock reading that it makes under the lock. -/
structure PkceEvent where
  now : Instant
  call : PkceCall
deriving DecidableEq, Repr

namespace PkceStore

/-- The store after one call. -/
def step (store : PkceStore) (event : PkceEvent) : PkceStore :=
  match event.call with
  | .insert state providerName codeVerifier =>
      store.insert state providerName codeVerifier event.now
  | .consume state => (store.consume state event.now).2

/-- The store after a history of calls. -/
def after (history : List PkceEvent) : PkceStore := history.foldl step .new

end PkceStore

def PkceCall.state : PkceCall → String
  | insert state _ _ => state
  | consume state => state

/-- The most recent call on a state. -/
def lastCall (state : String) (history : List PkceEvent) : Option PkceEvent :=
  history.reverse.find? (·.call.state = state)

/-- The clock readings do not decrease. -/
def NonDecreasing (history : List PkceEvent) : Prop := history.Pairwise (·.now ≤ ·.now)

/-! ## The store as a store of pending entries -/

def PkceEvent.toPending (event : PkceEvent) : Pending.Event String PkceTransaction Instant where
  now := event.now
  op := match event.call with
    | .insert state providerName codeVerifier =>
        .put state ⟨providerName, codeVerifier, event.now⟩
    | .consume state => .take state

section

variable {history : List PkceEvent} {event : PkceEvent} {state : String} {now : Instant}
  {txn : PkceTransaction}

theorem PkceTransaction.isLive_iff : txn.isLive now = true ↔
    now - txn.createdAt < 600 * 1000000000 := decide_eq_true_iff

theorem PkceTransaction.mortal : Pending.Mortal PkceTransaction.isLive := by
  intro txn earlier later le hlive
  rw [isLive_iff] at hlive ⊢
  exact (Int.sub_le_sub_right le txn.createdAt).trans_lt hlive

theorem PkceEvent.toPending_key : event.toPending.op.key = event.call.state := by
  rw [toPending]
  cases event.call with
  | insert state providerName codeVerifier => rfl
  | consume state => rfl

theorem PkceStore.step_eq (store : PkceStore) (event : PkceEvent) :
    store.step event = Pending.step PkceTransaction.isLive store event.toPending := by
  rw [step, Pending.step, PkceEvent.toPending]
  cases event.call with
  | insert state providerName codeVerifier => rfl
  | consume state => rfl

theorem PkceStore.after_eq (history : List PkceEvent) :
    PkceStore.after history = Pending.run PkceTransaction.isLive (history.map (·.toPending)) := by
  rw [after, Pending.run, List.foldl_map]
  congr 1
  funext store event
  exact store.step_eq event

theorem lastOn_toPending : Pending.lastOn state (history.map (·.toPending)) =
    (lastCall state history).map (·.toPending) := by
  rw [Pending.lastOn, lastCall, ← List.map_reverse, List.find?_map]
  congr 2
  funext event
  exact congrArg (fun key => decide (key = state)) PkceEvent.toPending_key

theorem NonDecreasing.ordered (h : NonDecreasing history) :
    Pending.Ordered (history.map (·.toPending)) := List.pairwise_map.mpr h

theorem past_toPending (past : ∀ event ∈ history, event.now ≤ now) :
    ∀ event ∈ history.map (·.toPending), event.now ≤ now := by
  intro event hevent
  obtain ⟨source, hsource, rfl⟩ := List.mem_map.mp hevent
  exact past source hsource

/-- What the last call on a state has put is what an insertion has recorded. -/
theorem put_iff : (∃ event, Pending.lastOn state (history.map (·.toPending)) = some event ∧
      event.op = .put state txn) ↔
    lastCall state history =
      some ⟨txn.createdAt, .insert state txn.providerName txn.codeVerifier⟩ := by
  rw [lastOn_toPending]
  constructor
  · rintro ⟨_, hlast, hput⟩
    obtain ⟨⟨made, call⟩, hcall, rfl⟩ := Option.map_eq_some_iff.mp hlast
    rw [hcall]
    cases call with
    | insert state' providerName codeVerifier =>
        obtain ⟨rfl, rfl⟩ := Pending.Op.put.inj hput
        rfl
    | consume state' => cases hput
  · intro hcall
    exact ⟨_, by rw [hcall]; rfl, rfl⟩

end

/-! ## The refinement -/

/-- After a history of calls the store answers as the history says. -/
structure PkceStore.RefinesLog (history : List PkceEvent) : Prop where
  /-- A state is exchanged for a transaction exactly if the last call on it has inserted this
  transaction, less than 600 seconds ago. -/
  consume : ∀ state now, (∀ event ∈ history, event.now ≤ now) → ∀ txn,
    (consume state now (after history)).1 = some txn ↔
      lastCall state history =
          some ⟨txn.createdAt, .insert state txn.providerName txn.codeVerifier⟩ ∧
        now - txn.createdAt < 600 * 1000000000
  /-- A state that is exchanged again has been inserted again. -/
  once : ∀ before earlier between state now txn, (∀ event ∈ history, event.now ≤ now) →
    history = before ++ ⟨earlier, .consume state⟩ :: between →
    (PkceStore.consume state now (after history)).1 = some txn →
    ⟨txn.createdAt, .insert state txn.providerName txn.codeVerifier⟩ ∈ between
  /-- Pruning loses no transaction that could still be exchanged. -/
  held : ∀ state now txn, (∀ event ∈ history, event.now ≤ now) →
    lastCall state history =
      some ⟨txn.createdAt, .insert state txn.providerName txn.codeVerifier⟩ →
    now - txn.createdAt < 600 * 1000000000 → after history state = some txn
  /-- Right after an insertion, every transaction in the store is younger than 600 seconds. -/
  bounded : ∀ state providerName codeVerifier now key txn,
    insert state providerName codeVerifier now (after history) key = some txn →
    now - txn.createdAt < 600 * 1000000000

theorem pkceStore_refinesLog {history : List PkceEvent} (clock : NonDecreasing history) :
    PkceStore.RefinesLog history where
  consume state now past txn := by
    rw [← put_iff, ← PkceTransaction.isLive_iff, PkceStore.after_eq]
    exact Pending.taken_run_eq_some PkceTransaction.mortal clock.ordered (past_toPending past)
  once before earlier between state now txn past split again := by
    subst split
    have hpast := past_toPending past
    have hordered := clock.ordered
    rw [PkceStore.after_eq] at again
    rw [List.map_append, List.map_cons] at hpast hordered again
    obtain ⟨event, hevent, hput⟩ :=
      Pending.put_between PkceTransaction.mortal hordered hpast rfl again
    obtain ⟨⟨made, call⟩, hsource, rfl⟩ := List.mem_map.mp hevent
    cases call with
    | insert state' providerName codeVerifier =>
        obtain ⟨rfl, rfl⟩ := Pending.Op.put.inj hput
        exact hsource
    | consume state' => cases hput
  held state now txn past last young := by
    rw [PkceStore.after_eq]
    exact Pending.run_of_left PkceTransaction.mortal clock.ordered (past_toPending past)
      (put_iff.mpr last) (PkceTransaction.isLive_iff.mpr young)
  bounded state providerName codeVerifier now key txn held := by
    rw [← PkceTransaction.isLive_iff]
    have hfresh : PkceTransaction.isLive ⟨providerName, codeVerifier, now⟩ now = true := by
      rw [PkceTransaction.isLive_iff, Int.sub_self]
      decide
    have hstep : Pending.step PkceTransaction.isLive (PkceStore.after history)
        (PkceEvent.toPending ⟨now, .insert state providerName codeVerifier⟩) key = some txn := by
      rw [← PkceStore.step_eq]
      exact held
    exact Pending.live_of_step_put rfl hfresh hstep

/-- A state is inserted, exchanged, and inserted again. -/
theorem pkceStore_refinesLog_reused : PkceStore.RefinesLog [
    ⟨0, .insert "state" "corp" "first"⟩, ⟨1, .consume "state"⟩,
    ⟨2, .insert "state" "corp" "second"⟩] :=
  pkceStore_refinesLog (by unfold NonDecreasing; decide)

end Patroclus
