import Patroclus.Api.Effects

/-!
# Revocation

The database marks revoked tokens, and `verify` asks a set in memory. Two
operations write one side only: the emergency stop marks the rows of an agent
and enters none of them in the set, and a restart begins with an empty set. A
run keeps the two sides together exactly when it never stops an agent with a live
row, and never restarts over a revoked one.
-/

namespace Patroclus

open Foundation

/-- Every row that is marked as revoked is known to the verifier. -/
def Guarded.Agrees (g : Guarded) : Prop :=
  ∀ row ∈ g.tokens, row.revoked = true → row.id ∈ g.jtiStore

/-- Revocation is enforced: the two stores agree, and a valid token whose row is
marked as revoked is rejected for that reason. -/
structure World.RevocationEnforced (p : Platform) (w : World) : Prop where
  agrees : w.guarded.Agrees
  rejects : ∀ row ∈ w.app.db.tokens, row.revoked = true →
    ∀ (token : String) (claims : AgentClaims) (audience : Option String) (decodeNow now : Instant),
      p.jwt.payload token = some claims → claims.jti = row.id →
      (⟨p.config.tokenIssuer, audience⟩ : Validation).Accepts claims decodeNow.timestamp →
      now.timestamp ≤ claims.exp →
      TokenVerifier.verify p w.app.jtiStore decodeNow now token audience =
        .error (.revokedToken row.id)

/-- A stop finds no row to mark that the verifier does not know, and a restart finds
no row marked. -/
def World.KeepsRevocation (w : World) (input : Input) : Prop :=
  match input.event with
  | .call (.killAgent id) => w.up = true → input.tape.fault 0 = none →
      ∀ row ∈ w.app.db.tokens, row.agentId = id → row.revoked = false → row.id ∈ w.app.jtiStore
  | .call _ => True
  | .restart => ∀ row ∈ w.app.db.tokens, row.revoked = false

section

variable {p : Platform} {w : World} {input : Input}

theorem World.revocationEnforced_iff : w.RevocationEnforced p ↔ w.guarded.Agrees := by
  refine ⟨fun h => h.agrees, fun hagrees => ⟨hagrees, ?_⟩⟩
  intro row hrow hrevoked token claims audience decodeNow now hpayload hjti haccepts hexp
  have hmem : claims.jti ∈ w.app.jtiStore := by
    rw [hjti]
    exact hagrees row hrow hrevoked
  rw [TokenVerifier.verify_of_decode (p.jwt.decode_ok_iff.mpr ⟨hpayload, haccepts⟩),
    if_neg (by omega), if_pos hmem, hjti]

/-- Marking rows keeps the agreement exactly if the newly marked ones are known. -/
theorem Guarded.Agrees.revokeRows_iff {g : Guarded} (h : g.Agrees) {cond : TokenRow → Bool}
    {jtiStore : Finset String} (more : g.jtiStore ⊆ jtiStore) :
    Guarded.Agrees { g with jtiStore, tokens := revokeRows cond g.tokens } ↔
      ∀ row ∈ g.tokens, cond row = true → row.id ∈ jtiStore := by
  constructor
  · intro hagrees row hrow hcond
    have hmem : Db.revokedRow row ∈ revokeRows cond g.tokens :=
      mem_revokeRows.mpr ⟨row, hrow, by rw [if_pos hcond]⟩
    exact hagrees (Db.revokedRow row) hmem rfl
  · intro hknown row hrow hrevoked
    obtain ⟨old, hold, rfl⟩ := mem_revokeRows.mp hrow
    split at hrevoked
    · rename_i hcond
      rw [if_pos hcond]
      exact hknown old hold hcond
    · rename_i hcond
      rw [if_neg hcond]
      exact more (h old hold hrevoked)

theorem Guarded.Agrees.mints {g after : Guarded} {stored : TokenRow → Prop} {minted : Minted}
    (h : g.Agrees) (mints : Guarded.Mints stored minted g after)
    (fresh : ∀ row, stored row → row.revoked = false) : after.Agrees := by
  intro row hrow hrevoked
  rw [mints.jtiStore]
  obtain hold | hstored := mints.mem_tokens hrow
  · exact h row hold hrevoked
  · rw [fresh row hstored] at hrevoked
    cases hrevoked

theorem World.keepsRevocation_call {call : Call} (event : input.event = .call call)
    (other : w.up = true → ∀ id, call ≠ .killAgent id) : w.KeepsRevocation input := by
  rw [World.KeepsRevocation]
  rw [event]
  cases call with
  | killAgent id => exact fun up => absurd rfl (other up id)
  | _ => trivial

theorem World.keepsRevocation_killAgent {id : Uuid} (event : input.event = .call (.killAgent id)) :
    w.KeepsRevocation input ↔ (w.up = true → input.tape.fault 0 = none →
      ∀ row ∈ w.app.db.tokens, row.agentId = id → row.revoked = false →
        row.id ∈ w.app.jtiStore) := by
  rw [World.KeepsRevocation, event]

theorem World.keepsRevocation_restart (event : input.event = .restart) :
    w.KeepsRevocation input ↔ ∀ row ∈ w.app.db.tokens, row.revoked = false := by
  rw [World.KeepsRevocation, event]

/-- One step keeps the agreement exactly under the guard. -/
theorem World.agrees_step_iff (h : w.guarded.Agrees) :
    (w.step p input).guarded.Agrees ↔ w.KeepsRevocation input := by
  have heffect := World.step_effect (p := p) w input
  generalize (w.step p input).guarded = after at heffect ⊢
  cases heffect with
  | kept event other => exact iff_of_true h (keepsRevocation_call event other)
  | access event _ _ mints =>
      exact iff_of_true (h.mints mints fun _ hrow => hrow.revoked)
        (keepsRevocation_call event nofun)
  | delegation event _ _ mints =>
      exact iff_of_true (h.mints mints fun _ hrow => hrow.revoked)
        (keepsRevocation_call event nofun)
  | grant event _ _ mints =>
      exact iff_of_true (h.mints mints fun _ hrow => hrow.revoked)
        (keepsRevocation_call event nofun)
  | revoked event =>
      refine iff_of_true ((h.revokeRows_iff (Finset.subset_insert _ _)).mpr fun row _ hid => ?_)
        (keepsRevocation_call event nofun)
      rw [beq_iff_eq.mp hid]
      exact Finset.mem_insert_self _ _
  | stopped event up =>
      rw [keepsRevocation_killAgent event]
      cases hfault : input.tape.fault 0 with
      | some message => exact iff_of_true h fun _ hnone => by cases hnone
      | none =>
          refine (h.revokeRows_iff (Finset.Subset.refl _)).trans ?_
          simp only [up, true_implies, Bool.and_eq_true, beq_iff_eq, Bool.not_eq_true', and_imp]
          rfl
  | restored event => exact iff_of_true h (keepsRevocation_call event nofun)
  | restarted event =>
      rw [keepsRevocation_restart event]
      constructor
      · intro hagrees row hrow
        by_contra hrevoked
        exact absurd (hagrees row hrow (by simpa using hrevoked)) (by simp)
      · intro hlive row hrow hrevoked
        rw [hlive row hrow] at hrevoked
        cases hrevoked

/-- In every run, revocation is enforced in each state that is reached exactly if each
input keeps the two stores together. -/
theorem revocationEnforced_along_iff (inputs : List Input) :
    Along (World.step p) World.KeepsRevocation initialWorld inputs ↔
      ∀ done, done <+: inputs → (initialWorld.run p done).RevocationEnforced p := by
  simp only [World.revocationEnforced_iff]
  have hexact (w : World) (input : Input) (_ : True) (h : w.guarded.Agrees) :
      (w.step p input).guarded.Agrees ↔ w.KeepsRevocation input := World.agrees_step_iff h
  refine Along.iff_invariant hexact (.of_forall fun _ _ _ => trivial) ?_
  intro row hrow
  cases hrow

end

/-- The emergency stop marks the root grant of the agent, and the grant still verifies. -/
theorem not_revocationEnforced :
    ¬ ∀ p inputs, (initialWorld.run p inputs).RevocationEnforced p := by
  intro h
  let stop : Input := .steady (.call (.killAgent ⟨300⟩)) opening 450
  have henforced := h delegationPlatform (enrolment ++ [granting, stop])
  have hrow : ∃ row ∈ (initialWorld.run delegationPlatform
      (enrolment ++ [granting, stop])).app.db.tokens, row.revoked = true ∧
        rootClaims.jti = row.id := by decide
  obtain ⟨row, hmem, hrevoked, hjti⟩ := hrow
  have hreject := henforced.rejects row hmem hrevoked (Jwt.tableToken rootClaims) rootClaims
    (some (agentAudience ⟨300⟩)) opening opening (by decide) hjti (by decide) (by decide)
  have haccept : (TokenVerifier.verify delegationPlatform (initialWorld.run delegationPlatform
      (enrolment ++ [granting, stop])).app.jtiStore opening opening (Jwt.tableToken rootClaims)
        (some (agentAudience ⟨300⟩))).isOk = true := by decide
  rw [hreject] at haccept
  cases haccept

end Patroclus
