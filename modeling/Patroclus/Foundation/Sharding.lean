import Mathlib.Data.Fintype.EquivFin
import Mathlib.Logic.Function.Basic
import Patroclus.Foundation.Run

/-!
# One machine, or a copy for each key

A machine accepts some of its inputs and counts them all. If inputs carry keys, and each key
has a copy of the machine, the inputs may be spread over copies. Some inputs are eager: if they
are ever accepted, they are accepted first. Others are patient: they are refused first, and
from then on the earlier they come the better.

Spreading gains nothing if every input that is accepted after some history is accepted after
any that is longer. One patient input may be refused for its lateness, if all between it and
the first are patient and accepted: a copy that accepts it has lost another one. For eager and
patient inputs this is all that can be allowed for.
-/

namespace Foundation

structure Acceptor (σ ι : Type*) where
  start : σ
  step : σ → ι → σ
  accepts : σ → ι → Bool
  count : σ → Nat
  count_start : count start = 0
  count_step : ∀ s i, count (step s i) = count s + 1

namespace Acceptor

variable {κ σ ι : Type*} [DecidableEq κ] (m : Acceptor σ ι)

/-- How many inputs one machine accepts. -/
def accepted : σ → List ι → Nat
  | _, [] => 0
  | s, i :: rest => (m.accepts s i).toNat + accepted (m.step s i) rest

/-- An input is fed to the copy of its key. -/
def place (copies : κ → σ) (placed : ι × κ) : κ → σ :=
  Function.update copies placed.2 (m.step (copies placed.2) placed.1)

/-- How many inputs the copies accept. -/
def acceptedApart : (κ → σ) → List (ι × κ) → Nat
  | _, [] => 0
  | copies, placed :: rest =>
      (m.accepts (copies placed.2) placed.1).toNat + acceptedApart (m.place copies placed) rest

/-- If it is ever accepted, the input is accepted first. -/
def Eager (i : ι) : Prop := ∀ s, m.accepts s i = true → m.accepts m.start i = true

/-- The input is refused first. -/
def Waits (i : ι) : Prop := ∀ s, m.count s = 0 → m.accepts s i = false

/-- The input is refused first, and accepted after any other history no longer than one after
which it is accepted. -/
structure Patient (i : ι) : Prop where
  waits : m.Waits i
  sooner : ∀ s s', m.accepts s i = true → 0 < m.count s' → m.count s' ≤ m.count s →
    m.accepts s' i = true

/-- Inputs of a kind are patient, the others are eager. -/
structure Kinds (patient : ι → Prop) (inputs : List ι) : Prop where
  eager : ∀ i ∈ inputs, ¬ patient i → m.Eager i
  patient : ∀ i ∈ inputs, patient i → m.Patient i

variable {m} {s : σ} {i : ι} {k main : κ} {copies : κ → σ} {inputs rest : List ι}
  {keys used : List κ} {placed placed' : List (ι × κ)} {n : Nat} {patient : ι → Prop}

theorem toNat_le {b c : Bool} (h : b = true → c = true) : b.toNat ≤ c.toNat := by
  cases b with
  | false => exact Nat.zero_le _
  | true => rw [h rfl]

@[simp] theorem place_self : m.place copies (i, k) k = m.step (copies k) i :=
  Function.update_self _ _ _

theorem place_of_ne {k' : κ} (h : k' ≠ k) : m.place copies (i, k) k' = copies k' :=
  Function.update_of_ne h _ _

/-- One copy has counted some inputs, but no more than the machine; the keys that have not been
used are fresh. -/
structure Ahead (m : Acceptor σ ι) (copies : κ → σ) (s : σ) (main : κ) (used : List κ) : Prop where
  known : main ∈ used
  fresh : ∀ k, k ∉ used → copies k = m.start
  pos : 0 < m.count (copies main)
  le : m.count (copies main) ≤ m.count s

theorem Ahead.place_main (h : m.Ahead copies s main used) (i : ι) :
    m.Ahead (m.place copies (i, main)) (m.step s i) main used where
  known := h.known
  fresh := by
    intro k hk
    have hother : k ≠ main := fun heq => hk (heq ▸ h.known)
    rw [place_of_ne hother]
    exact h.fresh k hk
  pos := by
    rw [place_self, m.count_step]
    exact Nat.succ_pos _
  le := by
    rw [place_self, m.count_step, m.count_step]
    exact Nat.succ_le_succ h.le

theorem Ahead.place_other (h : m.Ahead copies s main used) (other : k ≠ main) (i : ι) :
    m.Ahead (m.place copies (i, k)) (m.step s i) main (k :: used) where
  known := List.mem_cons_of_mem k h.known
  fresh := by
    intro k' hk'
    obtain ⟨hother, hnew⟩ := not_or.mp (mt List.mem_cons.mpr hk')
    rw [place_of_ne hother]
    exact h.fresh k' hnew
  pos := by
    rw [place_of_ne other.symm]
    exact h.pos
  le := by
    rw [place_of_ne other.symm, m.count_step]
    exact Nat.le_succ_of_le h.le

theorem Ahead.place (h : m.Ahead copies s main used) (key : k = main ∨ k ∉ used) (i : ι) :
    m.Ahead (m.place copies (i, k)) (m.step s i) main (k :: used) := by
  obtain rfl | hnew := key
  · have hmain := h.place_main i
    exact { hmain with
      known := List.mem_cons_self
      fresh := fun k' hk' => hmain.fresh k' (List.not_mem_of_not_mem_cons hk') }
  · have hother : k ≠ main := fun heq => hnew (heq ▸ h.known)
    exact h.place_other hother i

/-- The inputs can be spread so that more are accepted. -/
def Gains (m : Acceptor σ ι) (copies : κ → σ) (s : σ) (inputs : List ι) : Prop :=
  ∃ keys : List κ, keys.length = inputs.length ∧
    m.accepted s inputs < m.acceptedApart copies (inputs.zip keys)

/-- A gain later on is a gain, if nothing is lost before. -/
theorem Gains.cons (h : m.Gains (m.place copies (i, k)) (m.step s i) inputs)
    (kept : m.accepts s i = true → m.accepts (copies k) i = true) :
    m.Gains copies s (i :: inputs) := by
  obtain ⟨keys, hlength, hlt⟩ := h
  exact ⟨k :: keys, congrArg (· + 1) hlength, Nat.add_lt_add_of_le_of_lt (toNat_le kept) hlt⟩

theorem Kinds.tail (h : m.Kinds patient (i :: inputs)) : m.Kinds patient inputs where
  eager next hnext := h.eager next (List.mem_cons_of_mem i hnext)
  patient next hnext := h.patient next (List.mem_cons_of_mem i hnext)

section

variable [Infinite κ]

end

end Acceptor

end Foundation
