import Patroclus.Properties.Tampering

/-!
# Rearranging the audit log

The hash of a row covers the hash of its predecessor, at a fixed width and in
front of everything else. In a log that the verifier accepts, every row is
therefore tied to its position: whoever keeps, reorders or repeats rows of the
log without changing them is left with the log cut off at some row.

SHA-256 maps to 32 bytes, so it is injective on no more than the inputs of the
log at hand, and this is all that is assumed of it.
-/

namespace Patroclus

open Foundation

/-- No two rows of the log have colliding inputs, and no digest is the genesis value. -/
structure CollisionFree (p : Platform) (entries : List AuditEntry) : Prop where
  width : ∀ bytes, (p.sha256 bytes).length = 32
  nonzero : ∀ bytes, p.sha256 bytes ≠ List.replicate 32 0
  injective : Set.InjOn p.sha256 {bytes | ∃ entry ∈ entries, bytes = entry.hashInput p}

section

variable {p : Platform} {entries rest : List AuditEntry} {entry other : AuditEntry}

theorem genesisPrevHash_eq :
    genesisPrevHash = String.ofList (hexBytes (List.replicate 32 0)) := by decide

theorem length_genesisPrevHash : genesisPrevHash.toList.length = 64 := by decide

theorem CollisionFree.length_computeHash (h : CollisionFree p entries) (entry : AuditEntry) :
    (entry.computeHash p).toList.length = 64 := by
  rw [AuditEntry.computeHash, String.toList_ofList, length_hexBytes, h.width]

/-- The predecessor hashes of an accepted log have the width of a digest. -/
theorem CollisionFree.length_prevHash (h : CollisionFree p entries)
    (linked : (auditSealing p).Linked genesisPrevHash entries) (hmem : entry ∈ entries) :
    entry.prevHash.toList.length = 64 := by
  obtain hgenesis | ⟨last, -, hlast⟩ := linked.previous_of_mem hmem
  · have hgenesis : entry.prevHash = genesisPrevHash := hgenesis
    rw [hgenesis, length_genesisPrevHash]
  · have hlast : entry.prevHash = last.computeHash p := hlast
    rw [hlast, h.length_computeHash]

/-- At a fixed width, the bytes of a row determine the hash of its predecessor. -/
theorem prevHash_eq_of_hashInput
    (hwidth : entry.prevHash.toList.length = other.prevHash.toList.length)
    (h : entry.hashInput p = other.hashInput p) : entry.prevHash = other.prevHash := by
  rw [hashInput_eq, hashInput_eq] at h
  obtain ⟨htext, -⟩ := List.append_inj' h rfl
  have hchars := congrArg String.toList (utf8_injective htext)
  simp only [String.toList_append, List.append_assoc] at hchars
  obtain ⟨hprev, -⟩ := List.append_inj hchars hwidth
  exact String.toList_inj.mp hprev

theorem CollisionFree.binding (h : CollisionFree p entries)
    (linked : (auditSealing p).Linked genesisPrevHash entries) :
    (auditSealing p).Binding genesisPrevHash entries := by
  constructor
  · intro entry _ hgenesis
    have hhash : entry.computeHash p = genesisPrevHash := hgenesis
    rw [genesisPrevHash_eq, AuditEntry.computeHash, String.ofList_inj] at hhash
    exact h.nonzero _ (hexBytes_injective hhash)
  · intro entry hentry other hother hsame
    have hhash : entry.computeHash p = other.computeHash p := hsame
    rw [AuditEntry.computeHash, AuditEntry.computeHash, String.ofList_inj] at hhash
    have hinput : entry.hashInput p = other.hashInput p :=
      h.injective ⟨entry, hentry, rfl⟩ ⟨other, hother, rfl⟩ (hexBytes_injective hhash)
    have hwidth : entry.prevHash.toList.length = other.prevHash.toList.length := by
      rw [h.length_prevHash linked hentry, h.length_prevHash linked hother]
    exact prevHash_eq_of_hashInput hwidth hinput

/-- Rows of an accepted log, in whatever selection and order, are accepted only as a
prefix of the log. -/
theorem prefix_of_accepted (hash : CollisionFree p entries)
    (accepted : (verifyChain p entries).isValid = true)
    (rows : ∀ entry ∈ rest, entry ∈ entries)
    (reaccepted : (verifyChain p rest).isValid = true) : rest <+: entries := by
  have hlinked := verifyChain_isValid_iff.mp accepted
  have hrest := verifyChain_isValid_iff.mp reaccepted
  exact hlinked.prefix_of_subset (hash.binding hlinked) hrest rows

end

/-- The digest of reading `db` at the start of a log. -/
def readDigest : List UInt8 := [
  68, 166, 99, 103, 217, 170, 167, 114, 8, 138, 150, 3, 210, 43, 129, 212,
  118, 195, 91, 48, 175, 63, 65, 147, 233, 85, 173, 205, 32, 131, 116, 101]

/-- The digest of writing `db` right after that. -/
def writeDigest : List UInt8 := [
  237, 104, 166, 55, 24, 27, 80, 13, 180, 87, 51, 187, 17, 178, 27, 33,
  194, 127, 123, 141, 162, 57, 252, 135, 72, 164, 27, 111, 129, 150, 251, 2]

/-- SHA-256 on the inputs of these two rows; the first begins with the zeros of the genesis. -/
def digestPlatform : Platform :=
  { tamperPlatform with
    sha256 := fun bytes => if bytes.head? = some 48 then readDigest else writeDigest }

def firstRow : AuditEntry :=
  { readEntry "read" "db" with rowHash := (readEntry "read" "db").computeHash digestPlatform }

def secondRow : AuditEntry :=
  let entry : AuditEntry := { readEntry "write" "db" with id := 2, prevHash := firstRow.rowHash }
  { entry with rowHash := entry.computeHash digestPlatform }

private theorem sha256_firstRow :
    digestPlatform.sha256 (firstRow.hashInput digestPlatform) = readDigest := by
  decide

private theorem sha256_secondRow :
    digestPlatform.sha256 (secondRow.hashInput digestPlatform) = writeDigest := by
  decide

theorem accepted_rows : (verifyChain digestPlatform [firstRow, secondRow]).isValid = true :=
  verifyChain_isValid_iff.mpr
    ⟨rfl, computeHash_rowHash _ _, rfl, computeHash_rowHash _ _, trivial⟩

theorem collisionFree_rows : CollisionFree digestPlatform [firstRow, secondRow] := by
  have hdigest (bytes : List UInt8) : digestPlatform.sha256 bytes = readDigest ∨
      digestPlatform.sha256 bytes = writeDigest := by
    by_cases h : bytes.head? = some 48
    · exact .inl (if_pos h)
    · exact .inr (if_neg h)
  constructor
  · intro bytes
    obtain h | h := hdigest bytes
    · rw [h]
      rfl
    · rw [h]
      rfl
  · intro bytes
    rcases hdigest bytes with h | h
    · rw [h]
      decide
    · rw [h]
      decide
  · rintro _ ⟨entry, hentry, rfl⟩ _ ⟨other, hother, rfl⟩ hsame
    simp only [List.mem_cons, List.not_mem_nil, or_false] at hentry hother
    have hdiffer : readDigest ≠ writeDigest := by decide
    rcases hentry with rfl | rfl <;> rcases hother with rfl | rfl
    · rfl
    · rw [sha256_firstRow, sha256_secondRow] at hsame
      exact absurd hsame hdiffer
    · rw [sha256_firstRow, sha256_secondRow] at hsame
      exact absurd hsame.symm hdiffer
    · rfl

theorem prefix_of_accepted_rows : [firstRow] <+: [firstRow, secondRow] :=
  prefix_of_accepted collisionFree_rows accepted_rows (by simp)
    (verifyChain_isValid_iff.mpr ⟨rfl, computeHash_rowHash _ _, trivial⟩)

end Patroclus
