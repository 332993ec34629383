import Patroclus.Api.Decision
import Patroclus.Api.Delegation

/-!
# Grants and access tokens

Both kinds of token have one issuer, one key and one claim type. What tells them
apart is the audience: a grant is for `agent:<id>`, an access token for the
resource that the client has named. As long as the policy allows no request for a
resource of the first form, only grants are accepted where a grant is expected,
and a grant of depth 0 comes from a principal.

Signatures are assumed unforgeable: a presented text with a valid signature is
one that the issuer has signed.
-/

namespace Patroclus

open Foundation

/-- The grants of a principal and their descendants. -/
def Origin.IsGrant : Origin → Prop
  | .requestAccess _ => False
  | .delegate _ _ | .principalDelegate _ => True

/-- The token that a call presents as a grant. -/
def Call.presented : Call → Option String
  | .requestAccess _ req => req.delegationToken
  | .delegate _ req => some req.parentGrantToken
  | _ => none

/-- If the signature of the text is valid, then the issuer has signed it. -/
def World.Unforged (p : Platform) (w : World) (token : String) : Prop :=
  ∀ claims, p.jwt.payload token = some claims → ∃ m ∈ w.ledger, m.token = token

def World.PresentsUnforged (p : Platform) (w : World) (input : Input) : Prop :=
  ∀ call token, input.event = .call call → call.presented = some token → w.Unforged p token

/-- No rule allows the request, if its resource is the audience of an agent. -/
def World.KeepsKinds (w : World) (input : Input) : Prop :=
  ∀ auth req agentId, input.event = .call (.requestAccess auth req) →
    req.resource = agentAudience agentId →
    ∀ (n : Nat) (rule : Rule), rule.Decides w.app req (input.tape.now n) → rule.decision ≠ "allow"

/-- A token that `delegate` or `request_access` accepts as a grant was signed, and only
ever signed, as one; at depth 0 it is a principal's. -/
def World.KindsSeparate (p : Platform) (w : World) : Prop :=
  ∀ token presenter decodeNow now claims, w.Unforged p token →
    TokenVerifier.verify p w.app.jtiStore decodeNow now token (some (agentAudience presenter)) =
      .ok claims →
    (∃ m ∈ w.ledger, m.token = token) ∧ ∀ m ∈ w.ledger, m.token = token →
      m.claims = claims ∧ m.origin.IsGrant ∧
      (claims.act.delegationDepth = 0 ↔ ∃ grantId, m.origin = .principalDelegate grantId)

/-- What the claims of a signed token say about the call it was signed for. -/
structure Minted.HasKind (p : Platform) (m : Minted) : Prop where
  payload : p.jwt.payload m.token = some m.claims
  depth : m.claims.act.delegationDepth < 2 ^ 63
  access : ∀ agentId, m.origin = .requestAccess agentId → ∀ id, m.claims.aud ≠ agentAudience id
  child : ∀ presenter parent, m.origin = .delegate presenter parent →
    0 < m.claims.act.delegationDepth
  root : ∀ grantId, m.origin = .principalDelegate grantId → m.claims.act.delegationDepth = 0

def World.KindsKnown (p : Platform) (w : World) : Prop := ∀ m ∈ w.ledger, m.HasKind p

section

variable {p : Platform} {w : World} {input : Input}

theorem World.KindsKnown.separate (h : w.KindsKnown p) : w.KindsSeparate p := by
  intro token presenter decodeNow now claims hunforged hverify
  have hpayload := TokenVerifier.verify_claims hverify
  refine ⟨hunforged claims hpayload, ?_⟩
  rintro m hm rfl
  have hkind := h m hm
  obtain rfl : m.claims = claims := Option.some.inj (hkind.payload.symm.trans hpayload)
  have haud := TokenVerifier.verify_audience hverify
  cases horigin : m.origin with
  | requestAccess agentId => exact absurd haud (hkind.access agentId horigin presenter)
  | delegate presenter parent =>
      refine ⟨rfl, trivial, iff_of_false ?_ nofun⟩
      have hpos := hkind.child presenter parent horigin
      omega
  | principalDelegate grantId =>
      exact ⟨rfl, trivial, iff_of_true (hkind.root grantId horigin) ⟨grantId, rfl⟩⟩

/-- The depth of a child grant does not wrap around, and is not 0. -/
theorem nextDepth_pos {claims : AgentClaims} (h : claims.act.delegationDepth < 2 ^ 63) :
    0 < nextDepth claims := by
  rw [nextDepth, Nat.mod_eq_of_lt (by omega)]
  omega

theorem World.KindsKnown.mints {stored : TokenRow → Prop} {minted : Minted} {after : Guarded}
    (h : w.KindsKnown p) (mints : Guarded.Mints stored minted w.guarded after)
    (kind : minted.HasKind p) : ∀ m ∈ after.ledger, m.HasKind p := by
  intro m hm
  rw [mints.ledger] at hm
  obtain hm | hm := List.mem_append.mp hm
  · exact h m hm
  · rw [List.mem_singleton.mp hm]
    exact kind

theorem World.KindsKnown.step (h : w.KindsKnown p) (unforged : w.PresentsUnforged p input)
    (keeps : w.KeepsKinds input) : (w.step p input).KindsKnown p := by
  change ∀ m ∈ (w.step p input).guarded.ledger, m.HasKind p
  have heffect := World.step_effect (p := p) w input
  generalize (w.step p input).guarded = after at heffect ⊢
  cases heffect with
  | kept | revoked | stopped | restored | restarted => exact h
  | @access auth req caller s₁ s₂ eval minted after event allowed signed mints =>
      obtain ⟨horigin, hpayload, ⟨iat, exp, jti, hclaims⟩, -⟩ := sign_signed signed
      obtain ⟨n, rule, hdecides, hallow, -⟩ := allowed.decides
      refine h.mints mints {
        payload := hpayload
        depth := by rw [hclaims]; exact Nat.two_pow_pos 63
        access := fun agentId _ id haud => ?_
        child := by rw [horigin]; nofun
        root := by rw [horigin]; nofun }
      rw [hclaims] at haud
      exact keeps auth req id event haud n rule hdecides hallow
  | @delegation auth req presenter claims s₁ s₂ expiry minted after event allowed signed mints =>
      obtain ⟨horigin, hpayload, ⟨iat, exp, jti, hclaims⟩, -⟩ := sign_signed signed
      obtain ⟨hadmits, -⟩ := admitDelegation_eq_ok.mp allowed.admitted
      have hparent := TokenVerifier.verify_claims hadmits.verified
      obtain ⟨m, hm, htoken⟩ := unforged _ _ event rfl claims hparent
      obtain rfl : m.claims = claims := by
        have hm := (h m hm).payload
        rw [htoken] at hm
        exact Option.some.inj (hm.symm.trans hparent)
      have hdepth : minted.claims.act.delegationDepth = nextDepth m.claims := by
        rw [hclaims]
        rfl
      exact h.mints mints {
        payload := hpayload
        depth := by
          rw [hdepth]
          exact lt_of_le_of_lt hadmits.depth p.config.maxDelegationDepth_lt
        access := by rw [horigin]; nofun
        child := fun _ _ _ => by
          rw [hdepth]
          exact nextDepth_pos (h m hm).depth
        root := by rw [horigin]; nofun }
  | @grant req agent principal grantId s₁ minted after event stored signed mints =>
      obtain ⟨horigin, hpayload, ⟨iat, exp, jti, hclaims⟩, -⟩ := sign_signed signed
      exact h.mints mints {
        payload := hpayload
        depth := by rw [hclaims]; exact Nat.two_pow_pos 63
        access := by rw [horigin]; nofun
        child := by rw [horigin]; nofun
        root := fun _ _ => by rw [hclaims]; rfl }

/-- In a run without forged signatures, in which no request for the audience of an agent
is allowed, only grants are ever accepted as grants. -/
theorem kindsSeparate_of_along {inputs : List Input} (h : Along (World.step p)
    (fun w input => w.PresentsUnforged p input ∧ w.KeepsKinds input) initialWorld inputs) :
    (initialWorld.run p inputs).KindsSeparate p := by
  refine World.KindsKnown.separate ?_
  have hpreserved (w : World) (input : Input) (hw : w.KindsKnown p)
      (hok : w.PresentsUnforged p input ∧ w.KeepsKinds input) : (w.step p input).KindsKnown p :=
    hw.step hok.1 hok.2
  have hstart : initialWorld.KindsKnown p := fun m hm => by cases hm
  exact Along.invariant hpreserved hstart h

end

/-- A platform that can sign a grant, its child and an access token, under an open policy. -/
def mixedPlatform : Platform :=
  .concrete (Jwt.ofTable [rootClaims, childClaims,
    { readClaims ⟨608⟩ with sub := "user:alice@corp" }] (by decide))
    (parseKnown allowAll [.plain "allow" "test"])

/-- A run that signs all three. -/
def mixing : List Input := enrolment ++ [permitting, granting,
  .steady (.call delegating) opening 500,
  .steady (.call (.requestAccess (some ⟨300⟩) readDatabase)) opening 600]

theorem kindsSeparate_mixing : (initialWorld.run mixedPlatform mixing).ledger.length = 3 ∧
    (initialWorld.run mixedPlatform mixing).KindsSeparate mixedPlatform := by
  have quiet {w : World} {call : Call} {now : Instant} {firstId : Nat}
      (hquiet : call.presented = none) :
      w.PresentsUnforged mixedPlatform (.steady (.call call) now firstId) := by
    intro call' token hevent hpresented
    cases hevent
    rw [hquiet] at hpresented
    cases hpresented
  have hdelegation {w : World} (hsigned : ∃ m ∈ w.ledger, m.token = Jwt.tableToken rootClaims) :
      w.PresentsUnforged mixedPlatform (.steady (.call delegating) opening 500) := by
    intro call token hevent hpresented claims _
    cases hevent
    cases hpresented
    exact hsigned
  have hresource {w : World} : w.KeepsKinds
      (.steady (.call (.requestAccess (some ⟨300⟩) readDatabase)) opening 600) := by
    intro auth req agentId hevent haudience
    cases hevent
    have hlength : 2 = 6 + agentId.toString.length :=
      (congrArg String.length haudience).trans (String.length_append _ _)
    omega
  exact ⟨by decide +kernel, kindsSeparate_of_along ⟨⟨nofun, nofun⟩, ⟨quiet rfl, nofun⟩,
    ⟨quiet rfl, nofun⟩, ⟨quiet rfl, nofun⟩, ⟨quiet rfl, nofun⟩, ⟨hdelegation (by decide), nofun⟩,
    ⟨quiet rfl, hresource⟩, trivial⟩⟩

/-- The separation as a promise about every run without forged signatures. -/
def TokenKinds (p : Platform) : Prop :=
  ∀ inputs, Along (World.step p) (World.PresentsUnforged p) initialWorld inputs →
    (initialWorld.run p inputs).KindsSeparate p

/-- An access token for the resource `agent:<id>` of the agent itself. -/
def selfRequest : Call :=
  .requestAccess (some ⟨300⟩) ⟨⟨300⟩, "read", agentAudience ⟨300⟩, ["read"], none, none⟩

def selfClaims : AgentClaims := { rootClaims with exp := 1000, jti := (⟨608⟩ : Uuid).toString }

/-- An open policy allows the agent an access token that passes as a root grant. -/
theorem not_tokenKinds : ¬ ∀ p, TokenKinds p := by
  intro h
  let p : Platform := .concrete (Jwt.ofTable [selfClaims] (by decide))
    (parseKnown allowAll [.plain "allow" "test"])
  have hkinds := h p (enrolment ++ [permitting, .steady (.call selfRequest) opening 600])
    (.of_forall fun input hmem w call token hevent hpresented => by
      have hnone : ∀ input ∈ enrolment ++ [permitting, .steady (.call selfRequest) opening 600],
          input.event = .restart ∨ ∃ call, input.event = .call call ∧ call.presented = none := by
        simp [enrolment, permitting, selfRequest, Input.steady, Call.presented]
      obtain hrestart | ⟨call', hcall, hquiet⟩ := hnone input hmem
      · rw [hevent] at hrestart
        cases hrestart
      · rw [hevent] at hcall
        cases hcall
        rw [hquiet] at hpresented
        cases hpresented)
  obtain ⟨-, hgrant⟩ := hkinds (Jwt.tableToken selfClaims) ⟨300⟩ opening opening selfClaims
    (fun _ _ => by decide)
    (TokenVerifier.verify_ok_iff.mpr ⟨by decide, by decide, by decide, by decide⟩)
  have hminted : ∃ m ∈ (initialWorld.run p (enrolment ++
      [permitting, .steady (.call selfRequest) opening 600])).ledger,
        m.token = Jwt.tableToken selfClaims ∧ m.origin = .requestAccess ⟨300⟩ := by decide
  obtain ⟨m, hmem, htoken, horigin⟩ := hminted
  have hkind := (hgrant m hmem htoken).2.1
  rw [horigin] at hkind
  exact hkind

end Patroclus
