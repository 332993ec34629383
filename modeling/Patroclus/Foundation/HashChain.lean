import Mathlib.Data.List.Basic
import Mathlib.Data.List.Induction

/-!
# Hash chains

A chain is a list of entries. Each entry stores the seal of its predecessor and
its own, and a sealing function recomputes the latter from the entry. `Linked`
is the well-formedness of a chain that starts after a given seal, and `tip` is
the seal with which the next entry has to link up.

When the seals of a chain are binding, its entries can be put together to a chain
from the same start in one way only: as a prefix.
-/

namespace Foundation

/-- The stored seals of an entry and the recomputation of its own. -/
structure Sealing (ε σ : Type*) where
  previous : ε → σ
  stored : ε → σ
  recompute : ε → σ

namespace Sealing

variable {ε σ : Type*} (sealing : Sealing ε σ) {start : σ} {entry : ε} {entries rest : List ε}

/-- An entry whose stored seal is its own. -/
def Intact (entry : ε) : Prop := sealing.recompute entry = sealing.stored entry

/-- Every entry is intact and continues the one before it. -/
def Linked : σ → List ε → Prop
  | _, [] => True
  | start, entry :: rest =>
      sealing.previous entry = start ∧ sealing.Intact entry ∧ Linked (sealing.stored entry) rest

/-- The seal at the end of a chain. -/
def tip (start : σ) (entries : List ε) : σ := (entries.getLast?.map sealing.stored).getD start

@[simp] theorem tip_nil : sealing.tip start [] = start := rfl

@[simp] theorem tip_append_singleton :
    sealing.tip start (entries ++ [entry]) = sealing.stored entry := by
  simp [tip]

theorem tip_cons : sealing.tip start (entry :: rest) = sealing.tip (sealing.stored entry) rest := by
  cases rest with
  | nil => rfl
  | cons next rest =>
      obtain ⟨last, hlast⟩ := Option.isSome_iff_exists.mp
        (List.getLast?_isSome.mpr (List.cons_ne_nil next rest))
      rw [tip, List.getLast?_cons_cons, hlast, tip, hlast]
      rfl

theorem linked_append_iff : sealing.Linked start (entries ++ rest) ↔
    sealing.Linked start entries ∧ sealing.Linked (sealing.tip start entries) rest := by
  induction entries generalizing start with
  | nil => simp [Linked]
  | cons entry entries ih =>
      rw [tip_cons, List.cons_append]
      simp only [Linked, ih, and_assoc]

theorem Linked.intact {sealing : Sealing ε σ} (h : sealing.Linked start entries)
    (hmem : entry ∈ entries) : sealing.Intact entry := by
  induction entries generalizing start with
  | nil => cases hmem
  | cons head rest ih =>
      obtain rfl | hmem := List.mem_cons.mp hmem
      · exact h.2.1
      · exact ih h.2.2 hmem

/-! ## Rearrangements -/

/-- The seals of these entries are new, and two equal ones continue the same seal. -/
structure Binding (start : σ) (entries : List ε) : Prop where
  fresh : ∀ entry ∈ entries, sealing.recompute entry ≠ start
  previous : ∀ entry ∈ entries, ∀ other ∈ entries,
    sealing.recompute entry = sealing.recompute other →
      sealing.previous entry = sealing.previous other

variable {sealing}

theorem Linked.previous_eq_tip {before after : List ε}
    (h : sealing.Linked start (before ++ entry :: after)) :
    sealing.previous entry = sealing.tip start before :=
  (sealing.linked_append_iff.mp h).2.1

/-- Every entry continues the start of the chain or the seal of an entry. -/
theorem Linked.previous_of_mem (h : sealing.Linked start entries) (hmem : entry ∈ entries) :
    sealing.previous entry = start ∨
      ∃ other ∈ entries, sealing.previous entry = sealing.recompute other := by
  obtain ⟨before, after, rfl⟩ := List.append_of_mem hmem
  have hprevious := h.previous_eq_tip
  induction before using List.reverseRecOn with
  | nil => exact .inl hprevious
  | append_singleton before last _ =>
      have hlast : last ∈ (before ++ [last]) ++ entry :: after := by simp
      rw [tip_append_singleton, ← h.intact hlast] at hprevious
      exact .inr ⟨last, hlast, hprevious⟩

/-- The prefixes of a binding chain end in different seals: equal tips are traced back
entry by entry until one prefix is used up, and the other then is as well. -/
theorem Linked.eq_of_tip_eq (h : sealing.Linked start entries)
    (binding : sealing.Binding start entries) {left right : List ε} (hleft : left <+: entries)
    (hright : right <+: entries)
    (htip : sealing.tip start left = sealing.tip start right) : left = right := by
  have not_start {done : List ε} {last : ε} (hdone : done ++ [last] <+: entries) :
      sealing.tip start (done ++ [last]) ≠ start := by
    have hlast : last ∈ entries := hdone.subset (by simp)
    rw [tip_append_singleton, ← h.intact hlast]
    exact binding.fresh last hlast
  induction left using List.reverseRecOn generalizing right with
  | nil =>
      induction right using List.reverseRecOn with
      | nil => rfl
      | append_singleton right last _ => exact absurd htip.symm (not_start hright)
  | append_singleton left entry ih =>
      induction right using List.reverseRecOn with
      | nil => exact absurd htip (not_start hleft)
      | append_singleton right other _ =>
          have hentry : entry ∈ entries := hleft.subset (by simp)
          have hother : other ∈ entries := hright.subset (by simp)
          rw [tip_append_singleton, tip_append_singleton, ← h.intact hentry,
            ← h.intact hother] at htip
          have hprevious := binding.previous entry hentry other hother htip
          have tip_of {done : List ε} {last : ε} (hdone : done ++ [last] <+: entries) :
              sealing.previous last = sealing.tip start done := by
            obtain ⟨rest, rfl⟩ := hdone
            rw [List.append_assoc, List.singleton_append] at h
            exact h.previous_eq_tip
          rw [tip_of hleft, tip_of hright] at hprevious
          have hsame : left = right :=
            ih ((List.prefix_append left [entry]).trans hleft)
              ((List.prefix_append right [other]).trans hright) hprevious
          have hlength : (left ++ [entry]).length = (right ++ [other]).length := by
            rw [hsame]
            simp
          have hprefix := List.prefix_of_prefix_length_le hleft hright (Nat.le_of_eq hlength)
          exact hprefix.eq_of_length hlength

/-- A chain made of entries of a binding chain is a prefix of it. -/
theorem Linked.prefix_of_subset (h : sealing.Linked start entries)
    (binding : sealing.Binding start entries) (hrest : sealing.Linked start rest)
    (hsubset : ∀ entry ∈ rest, entry ∈ entries) : rest <+: entries := by
  induction rest using List.reverseRecOn with
  | nil => exact List.nil_prefix
  | append_singleton done entry ih =>
      have hdone : done <+: entries :=
        ih (sealing.linked_append_iff.mp hrest).1 fun e he => hsubset e (by simp [he])
      obtain ⟨before, after, hsplit⟩ := List.append_of_mem (hsubset entry (by simp))
      have hbefore : before <+: entries := ⟨entry :: after, hsplit.symm⟩
      have hprevious : sealing.previous entry = sealing.tip start before :=
        Linked.previous_eq_tip (hsplit ▸ h)
      have htip : sealing.tip start done = sealing.tip start before := by
        rw [← hprevious]
        exact hrest.previous_eq_tip.symm
      rw [h.eq_of_tip_eq binding hdone hbefore htip, hsplit]
      exact ⟨after, by simp⟩

end Sealing

end Foundation
