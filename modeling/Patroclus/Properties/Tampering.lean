import Mathlib.Tactic.Tauto
import Patroclus.Audit.Verifier

/-!
# Tampering with the payload of a row

A row's hash covers its fields one after the other, without separators. The
verifier notices a changed payload exactly if the agent, the flag or the
concatenation of all other fields is a different one; text that moves from one
field to the next leaves no trace. SHA-256 is assumed to be injective.
-/

namespace Patroclus

open Foundation

/-- The fields between the agent and the flag, as the hasher sees them. -/
def AuditEntry.payloadText (p : Platform) (entry : AuditEntry) : String :=
  entry.principalId.elim "" Uuid.toString ++ entry.action ++ entry.resource ++ entry.decision ++
    entry.reason ++ p.toRfc3339 entry.timestamp ++
    entry.delegationChain.elim "" p.jsonToString ++ entry.tokenJti.getD ""

/-- Another payload under the same id, predecessor hash and row hash. -/
structure AuditEntry.Tampered (entry tampered : AuditEntry) : Prop where
  id : tampered.id = entry.id
  prevHash : tampered.prevHash = entry.prevHash
  rowHash : tampered.rowHash = entry.rowHash
  payload : tampered ≠ entry

section

variable {p : Platform} {entry tampered : AuditEntry}

private theorem utf8_empty : utf8 "" = [] := by
  simp [utf8]

theorem hashInput_eq : entry.hashInput p =
    utf8 (entry.prevHash ++ entry.agentId.toString ++ entry.payloadText p) ++
      [if entry.dryRun then 1 else 0] := by
  have hprincipal : (entry.principalId.elim [] fun id => utf8 id.toString) =
      utf8 (entry.principalId.elim "" Uuid.toString) := by
    cases entry.principalId with
    | none => rw [Option.elim_none, Option.elim_none, utf8_empty]
    | some principalId => rw [Option.elim_some, Option.elim_some]
  have hchain : (entry.delegationChain.elim [] fun chain => utf8 (p.jsonToString chain)) =
      utf8 (entry.delegationChain.elim "" p.jsonToString) := by
    cases entry.delegationChain with
    | none => rw [Option.elim_none, Option.elim_none, utf8_empty]
    | some chain => rw [Option.elim_some, Option.elim_some]
  have htoken : entry.tokenJti.elim [] utf8 = utf8 (entry.tokenJti.getD "") := by
    cases entry.tokenJti with
    | none => rw [Option.elim_none, Option.getD_none, utf8_empty]
    | some jti => rw [Option.elim_some, Option.getD_some]
  rw [AuditEntry.hashInput, hprincipal, hchain, htoken, AuditEntry.payloadText]
  simp only [utf8_append, List.append_assoc]

/-- The bytes for two rows after the same predecessor agree exactly if agent, flag and
payload text do. The agent's id has a fixed length; nothing else marks a boundary. -/
theorem hashInput_eq_iff (h : tampered.prevHash = entry.prevHash) :
    tampered.hashInput p = entry.hashInput p ↔ tampered.agentId = entry.agentId ∧
      tampered.dryRun = entry.dryRun ∧ tampered.payloadText p = entry.payloadText p := by
  rw [hashInput_eq, hashInput_eq, h]
  constructor
  · intro hbytes
    obtain ⟨htext, hflag⟩ := List.append_inj' hbytes rfl
    have hchars := congrArg String.toList (utf8_injective htext)
    simp only [String.toList_append, List.append_assoc, List.append_cancel_left_eq] at hchars
    obtain ⟨hagent, hpayload⟩ := List.append_inj hchars (by simp)
    refine ⟨Uuid.toString_injective (String.toList_inj.mp hagent), ?_,
      String.toList_inj.mp hpayload⟩
    cases htampered : tampered.dryRun <;> cases hentry : entry.dryRun <;> simp_all
  · rintro ⟨hagent, hflag, hpayload⟩
    rw [hagent, hflag, hpayload]

theorem computeHash_eq_iff (injective : Function.Injective p.sha256)
    (h : tampered.prevHash = entry.prevHash) :
    tampered.computeHash p = entry.computeHash p ↔ tampered.agentId = entry.agentId ∧
      tampered.dryRun = entry.dryRun ∧ tampered.payloadText p = entry.payloadText p := by
  rw [← hashInput_eq_iff h, AuditEntry.computeHash, AuditEntry.computeHash, String.ofList_inj]
  exact ⟨fun hhash => injective (hexBytes_injective hhash), fun hbytes => by rw [hbytes]⟩

/-- In every accepted chain, the verifier reports a mismatch at a row with a changed
payload exactly if the agent, the flag or the concatenated text has changed. -/
theorem rowHashMismatch_iff {before after : List AuditEntry}
    (injective : Function.Injective p.sha256)
    (accepted : (verifyChain p (before ++ entry :: after)).isValid = true)
    (h : entry.Tampered tampered) :
    verifyChain p (before ++ tampered :: after) =
        ⟨before.length + 1, some ⟨entry.id, .rowHashMismatch⟩⟩ ↔
      tampered.agentId ≠ entry.agentId ∨ tampered.dryRun ≠ entry.dryRun ∨
        tampered.payloadText p ≠ entry.payloadText p := by
  have hlinked := verifyChain_isValid_iff.mp accepted
  obtain ⟨hbefore, hprev, hintact, hafter⟩ := (Sealing.linked_append_iff _).mp hlinked
  have hprev : entry.prevHash = (auditSealing p).tip genesisPrevHash before := hprev
  have hintact : entry.computeHash p = entry.rowHash := hintact
  have hrun : verifyChain p (before ++ tampered :: after) = verifyFrom p before.length
      ((auditSealing p).tip genesisPrevHash before) (tampered :: after) := by
    rw [verifyChain, verifyFrom_of_linked hbefore, Nat.zero_add]
  have hcondition : (tampered.agentId ≠ entry.agentId ∨ tampered.dryRun ≠ entry.dryRun ∨
      tampered.payloadText p ≠ entry.payloadText p) ↔
        tampered.computeHash p ≠ entry.computeHash p := by
    rw [Ne, Ne, Ne, Ne, computeHash_eq_iff injective h.prevHash]
    tauto
  rw [hcondition, hrun, verifyFrom, if_neg (not_not_intro (h.prevHash.trans hprev)), h.rowHash]
  constructor
  · intro hreport hsame
    -- With the same hash the whole chain is accepted as before.
    rw [if_neg (not_not_intro (hsame.trans hintact))] at hreport
    have hvalid : (verifyFrom p (before.length + 1) entry.rowHash after).isValid = true :=
      verifyFrom_isValid_iff.mpr hafter
    rw [hreport] at hvalid
    cases hvalid
  · intro hdiffers
    rw [if_pos fun hsame => hdiffers (hsame.trans hintact.symm), h.id]

end

def tamperPlatform : Platform :=
  .concrete (.ofTable [] List.nodup_nil) (parseKnown denyByDefault [])

/-- Reading a resource, at the start of a log. -/
def readEntry (action resource : String) : AuditEntry where
  id := 1
  prevHash := genesisPrevHash
  rowHash := ""
  agentId := ⟨300⟩
  principalId := none
  action := action
  resource := resource
  decision := "allow"
  reason := "test"
  delegationChain := none
  tokenJti := none
  dryRun := false
  timestamp := 0

/-- A row with its own hash. -/
def sealedRead : AuditEntry :=
  { readEntry "read" "db" with rowHash := (readEntry "read" "db").computeHash tamperPlatform }

/-- The hash of a row does not depend on the one it carries. -/
theorem computeHash_rowHash {p : Platform} (entry : AuditEntry) (rowHash : String) :
    ({ entry with rowHash := rowHash } : AuditEntry).computeHash p = entry.computeHash p := rfl

theorem intact_sealedRead : sealedRead.computeHash tamperPlatform = sealedRead.rowHash :=
  computeHash_rowHash _ _

theorem linked_sealedRead :
    (verifyChain tamperPlatform ([] ++ sealedRead :: [])).isValid = true :=
  verifyChain_isValid_iff.mpr ⟨rfl, intact_sealedRead, trivial⟩

theorem rowHashMismatch_iff_sealedRead :
    verifyChain tamperPlatform ([] ++ { sealedRead with decision := "deny" } :: []) =
        ⟨1, some ⟨1, .rowHashMismatch⟩⟩ ↔
      (⟨300⟩ : Uuid) ≠ ⟨300⟩ ∨ false ≠ false ∨
        ({ sealedRead with decision := "deny" } : AuditEntry).payloadText tamperPlatform ≠
          sealedRead.payloadText tamperPlatform := by
  have htampered : sealedRead.Tampered { sealedRead with decision := "deny" } :=
    ⟨rfl, rfl, rfl, fun h => absurd (congrArg AuditEntry.decision h) (by decide)⟩
  exact rowHashMismatch_iff Function.injective_id linked_sealedRead htampered

/-- Tamper evidence as a promise about every accepted chain and every changed payload. -/
def TamperEvident (p : Platform) : Prop :=
  ∀ (before after : List AuditEntry) (entry tampered : AuditEntry),
    (verifyChain p (before ++ entry :: after)).isValid = true → entry.Tampered tampered →
    verifyChain p (before ++ tampered :: after) =
      ⟨before.length + 1, some ⟨entry.id, .rowHashMismatch⟩⟩

/-- The action `read` on `db` passes for the action `readd` on `b`. -/
theorem not_tamperEvident :
    Function.Injective tamperPlatform.sha256 ∧ ¬ TamperEvident tamperPlatform := by
  refine ⟨Function.injective_id, fun h => ?_⟩
  have htampered : sealedRead.Tampered { sealedRead with action := "readd", resource := "b" } :=
    ⟨rfl, rfl, rfl, fun h => absurd (congrArg AuditEntry.action h) (by decide)⟩
  have hreport := h [] [] sealedRead _ linked_sealedRead htampered
  have hsame : ({ sealedRead with action := "readd", resource := "b" } : AuditEntry).computeHash
      tamperPlatform = sealedRead.computeHash tamperPlatform :=
    (computeHash_eq_iff Function.injective_id rfl).mpr ⟨rfl, rfl, by decide⟩
  have hintact := hsame.trans intact_sealedRead
  have hvalid : (verifyChain tamperPlatform
      [{ sealedRead with action := "readd", resource := "b" }]).isValid = true :=
    verifyChain_isValid_iff.mpr ⟨rfl, hintact, trivial⟩
  rw [List.nil_append] at hreport
  rw [hreport] at hvalid
  cases hvalid

end Patroclus
