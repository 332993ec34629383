import Patroclus.Audit.Entry
import Patroclus.Foundation.HashChain

/-!
# Offline verification of the audit chain

`verifyChain` replays the commitments of the rows in insertion order and stops
at the first that fails. It accepts exactly the linked chains that start at the
genesis seal.
-/

namespace Patroclus

open Foundation

inductive BrokenLinkReason where
  | rowHashMismatch
  | prevHashMismatch
deriving DecidableEq, Repr

structure BrokenLink where
  rowId : Int
  reason : BrokenLinkReason
deriving DecidableEq, Repr

structure ChainVerification where
  entriesChecked : Nat
  firstBrokenLink : Option BrokenLink
deriving DecidableEq, Repr

def ChainVerification.isValid (result : ChainVerification) : Bool := result.firstBrokenLink.isNone

def genesisPrevHash : String :=
  "0000000000000000000000000000000000000000000000000000000000000000"

section

variable (p : Platform)

/-- The loop of `verify_chain` from the entry at `index`. -/
def verifyFrom : Nat → String → List AuditEntry → ChainVerification
  | index, _, [] => ⟨index, none⟩
  | index, expectedPrev, entry :: rest =>
      if entry.prevHash ≠ expectedPrev then
        ⟨index + 1, some ⟨entry.id, .prevHashMismatch⟩⟩
      else if entry.computeHash p ≠ entry.rowHash then
        ⟨index + 1, some ⟨entry.id, .rowHashMismatch⟩⟩
      else verifyFrom (index + 1) entry.rowHash rest

def verifyChain (entries : List AuditEntry) : ChainVerification :=
  verifyFrom p 0 genesisPrevHash entries

/-- The audit log as a hash chain. -/
def auditSealing : Sealing AuditEntry String where
  previous := AuditEntry.prevHash
  stored := AuditEntry.rowHash
  recompute := AuditEntry.computeHash p

variable {p} {index : Nat} {expectedPrev : String} {entries rest : List AuditEntry}

theorem verifyFrom_of_linked (h : (auditSealing p).Linked expectedPrev entries) :
    verifyFrom p index expectedPrev (entries ++ rest) =
      verifyFrom p (index + entries.length) ((auditSealing p).tip expectedPrev entries) rest := by
  induction entries generalizing index expectedPrev with
  | nil => rfl
  | cons entry entries ih =>
      obtain ⟨hprev, hintact, hrest⟩ : entry.prevHash = expectedPrev ∧
        entry.computeHash p = entry.rowHash ∧ (auditSealing p).Linked entry.rowHash entries := h
      have htip : (auditSealing p).tip expectedPrev (entry :: entries) =
          (auditSealing p).tip entry.rowHash entries := Sealing.tip_cons _
      have hnext : verifyFrom p index expectedPrev (entry :: (entries ++ rest)) =
          verifyFrom p (index + 1) entry.rowHash (entries ++ rest) := by
        rw [verifyFrom, if_neg (not_not_intro hprev), if_neg (not_not_intro hintact)]
      rw [List.cons_append, hnext, ih hrest, htip, List.length_cons]
      congr 1
      omega

theorem verifyFrom_isValid_iff : (verifyFrom p index expectedPrev entries).isValid = true ↔
    (auditSealing p).Linked expectedPrev entries := by
  induction entries generalizing index expectedPrev with
  | nil => simp [verifyFrom, ChainVerification.isValid, Sealing.Linked]
  | cons entry rest ih =>
      by_cases hprev : entry.prevHash = expectedPrev
      · by_cases hintact : entry.computeHash p = entry.rowHash
        · rw [verifyFrom, if_neg (not_not_intro hprev), if_neg (not_not_intro hintact), ih]
          simp [Sealing.Linked, Sealing.Intact, auditSealing, hprev, hintact]
        · rw [verifyFrom, if_neg (not_not_intro hprev), if_pos hintact]
          simp [ChainVerification.isValid, Sealing.Linked, Sealing.Intact, auditSealing, hintact]
      · rw [verifyFrom, if_pos hprev]
        simp [ChainVerification.isValid, Sealing.Linked, auditSealing, hprev]

/-- Accepted lists are the linked chains from genesis. -/
theorem verifyChain_isValid_iff : (verifyChain p entries).isValid = true ↔
    (auditSealing p).Linked genesisPrevHash entries :=
  verifyFrom_isValid_iff

/-- On a linked chain every entry is checked. -/
theorem verifyChain_of_linked (h : (auditSealing p).Linked genesisPrevHash entries) :
    verifyChain p entries = ⟨entries.length, none⟩ := by
  have hrun : verifyFrom p 0 genesisPrevHash (entries ++ []) = _ := verifyFrom_of_linked h
  rw [List.append_nil] at hrun
  rw [verifyChain, hrun, verifyFrom, Nat.zero_add]

end

end Patroclus
