import Patroclus.Api.Delegation

/-!
# Delegation chains

A chain starts with the grant of a principal, and each further token is issued to
a caller that presents the one before. The hops may be served at any time and by
any state of the server. Along a chain of any length the scopes shrink, subject
and constraints stay, and the depth and the recorded chain tell the tokens that
came before.
-/

namespace Patroclus

open Foundation

/-- A chain of `length` delegations after the principal's grant. The claims of a token
are those that its verifiers read. -/
structure DelegationChain (p : Platform) where
  length : Nat
  grant : PrincipalDelegateRequest
  auth : Nat → Option Uuid
  request : Nat → DelegateRequest
  token : Nat → String
  claims : Nat → AgentClaims
  root : ∃ s response finish, principalDelegate p grant s = (.ok response, finish) ∧
    response.delegationToken = token 0
  hop : ∀ i < length, (request i).parentGrantToken = token i ∧
    ∃ s response finish, delegate p (auth i) (request i) s = (.ok response, finish) ∧
      response.delegatedToken = token (i + 1)
  signed : ∀ i ≤ length, p.jwt.payload (token i) = some (claims i)

namespace DelegationChain

variable {p : Platform} (chain : DelegationChain p)

/-- The hop from a token to the next one. -/
structure Narrows (i : Nat) : Prop where
  presenter : ∃ agentId, chain.auth i = some agentId ∧
    (chain.claims i).act.sub = agentAudience agentId
  words : splitWhitespace (chain.claims (i + 1)).scope = (chain.request i).scopes
  subset : ∀ scope ∈ (chain.request i).scopes, scope ∈ splitWhitespace (chain.claims i).scope
  subject : (chain.claims (i + 1)).sub = (chain.claims i).sub
  constraints : (chain.claims (i + 1)).constraints = (chain.claims i).constraints
  audience : (chain.claims (i + 1)).aud = agentAudience (chain.request i).subAgentId
  actor : (chain.claims (i + 1)).act.sub = agentAudience (chain.request i).subAgentId

/-- The subject and the actor of a token, as its descendants record them. -/
def hopOf (j : Nat) : DelegationHop := ⟨(chain.claims j).sub, (chain.claims j).act.sub⟩

/-- What a token says about its place in the chain. -/
structure Placed (i : Nat) : Prop where
  depth : (chain.claims i).act.delegationDepth = i
  bound : 1 ≤ i → i ≤ p.config.maxDelegationDepth
  hops : (chain.claims i).act.delegationChain =
    if i = 0 then none else some ((List.range i).map chain.hopOf)
  addressed : (chain.claims i).aud = (chain.claims i).act.sub

/-- The claims of the first token are those of the principal's grant. -/
theorem root_claims : ∃ principal agent iat exp jti,
    chain.claims 0 = (grantParams p principal agent chain.grant).claims p iat exp jti := by
  obtain ⟨s, response, finish, hrun, htoken⟩ := chain.root
  obtain ⟨agent, principal, iat, exp, jti, -, hpayload⟩ := principalDelegate_ok hrun
  rw [htoken, chain.signed 0 (Nat.zero_le _)] at hpayload
  exact ⟨principal, agent, iat, exp, jti, Option.some.inj hpayload⟩

/-- Each hop has been admitted on the claims of its token and has signed the next. -/
theorem hop_claims {i : Nat} (hi : i < chain.length) : ∃ s presenter ttl iat exp jti,
    chain.auth i = some presenter ∧ Admits p presenter (chain.request i) s (chain.claims i) ∧
      chain.claims (i + 1) =
        (childParams p (chain.claims i) (chain.request i) ttl).claims p iat exp jti := by
  obtain ⟨hpresents, s, response, finish, hrun, htoken⟩ := chain.hop i hi
  obtain ⟨presenter, claims, expiry, minted, hauth, hsigned, hresponse, -⟩ := delegate_ok hrun
  have hparent := TokenVerifier.verify_claims hsigned.admitted.verified
  rw [hpresents, chain.signed i (Nat.le_of_lt hi)] at hparent
  obtain rfl := Option.some.inj hparent
  obtain ⟨hpayload, iat, exp, jti, hclaims⟩ := childSigned_claims hsigned
  have hissued : minted.token = chain.token (i + 1) := by
    rw [← htoken, hresponse]
  rw [hissued, chain.signed (i + 1) hi] at hpayload
  exact ⟨s, presenter, expiry.2, iat, exp, jti, hauth, hsigned.admitted,
    (Option.some.inj hpayload).trans hclaims⟩

theorem placed_zero : chain.Placed 0 := by
  obtain ⟨principal, agent, iat, exp, jti, hclaims⟩ := chain.root_claims
  exact {
    depth := by rw [hclaims]; rfl
    bound := fun h => by cases h
    hops := by rw [hclaims]; rfl
    addressed := by rw [hclaims]; rfl }

theorem placed_succ {i : Nat} (hi : i < chain.length) (h : chain.Placed i) :
    chain.Placed (i + 1) := by
  obtain ⟨s, presenter, ttl, iat, exp, jti, -, hadmits, hclaims⟩ := chain.hop_claims hi
  have hsmall : i < 2 ^ 63 := by
    have hmax := p.config.maxDelegationDepth_lt
    obtain rfl | hpos := Nat.eq_zero_or_pos i
    · exact Nat.two_pow_pos 63
    · exact lt_of_le_of_lt (h.bound hpos) hmax
  have hnext : nextDepth (chain.claims i) = i + 1 := by
    rw [nextDepth, h.depth, Nat.mod_eq_of_lt (by omega)]
  have hearlier : (chain.claims i).act.delegationChain.getD [] =
      (List.range i).map chain.hopOf := by
    rw [h.hops]
    split
    · rename_i hzero
      rw [hzero]
      rfl
    · rfl
  exact {
    depth := by rw [hclaims]; exact hnext
    bound := fun _ => hnext ▸ hadmits.depth
    hops := by
      rw [if_neg (Nat.succ_ne_zero i), List.range_succ, List.map_append, ← hearlier, hclaims]
      rfl
    addressed := by rw [hclaims]; rfl }

theorem placed {i : Nat} (hi : i ≤ chain.length) : chain.Placed i := by
  induction i with
  | zero => exact chain.placed_zero
  | succ i ih => exact chain.placed_succ hi (ih (Nat.le_of_lt hi))

theorem narrows {i : Nat} (hi : i < chain.length) : chain.Narrows i := by
  obtain ⟨s, presenter, ttl, iat, exp, jti, hauth, hadmits, hclaims⟩ := chain.hop_claims hi
  have haud := TokenVerifier.verify_audience hadmits.verified
  -- A scope that was found among the words of the parent is a word itself.
  have hwords : ∀ scope ∈ (chain.request i).scopes, IsScopeWord scope := fun scope hmem =>
    isScopeWord_of_mem (hadmits.scopes scope hmem)
  exact {
    presenter := ⟨presenter, hauth, (chain.placed (Nat.le_of_lt hi)).addressed.symm.trans haud⟩
    words := by
      rw [hclaims]
      exact (splitWhitespace_joinScopes_eq_iff _).mpr hwords
    subset := hadmits.scopes
    subject := by rw [hclaims]; rfl
    constraints := by rw [hclaims]; rfl
    audience := by rw [hclaims]; rfl
    actor := by rw [hclaims]; rfl }

/-- Along every chain, each hop narrows the token before it, and each token tells its
place. -/
theorem attenuates : (∀ i < chain.length, chain.Narrows i) ∧ ∀ i ≤ chain.length, chain.Placed i :=
  ⟨fun _ hi => chain.narrows hi, fun _ hi => chain.placed hi⟩

/-- A child of the child, for half a minute and without its scope. -/
def grandchildClaims : AgentClaims :=
  { childClaims with
    scope := ""
    act := ⟨agentAudience ⟨300⟩, 2, some [⟨"user:alice@corp", agentAudience ⟨300⟩⟩,
      ⟨"user:alice@corp", agentAudience ⟨300⟩⟩]⟩
    exp := 130
    jti := (⟨605⟩ : Uuid).toString }

/-- A platform that can sign the root grant, its child and the child of this. -/
def nestedPlatform : Platform :=
  .concrete (Jwt.ofTable [rootClaims, childClaims, grandchildClaims] (by decide))
    (parseKnown denyByDefault [])

/-- The claims of a chain of three. -/
def nestedClaims : Nat → AgentClaims
  | 0 => rootClaims
  | 1 => childClaims
  | _ => grandchildClaims

/-- The root grant of the enrolled agent and two delegations. -/
def enrolled : DelegationChain nestedPlatform where
  length := 2
  grant := ⟨⟨300⟩, ["read"], none, 600⟩
  auth _ := some ⟨300⟩
  request i :=
    if i = 0 then ⟨Jwt.tableToken rootClaims, ⟨300⟩, ["read"], 60⟩
    else ⟨Jwt.tableToken childClaims, ⟨300⟩, [], 30⟩
  token i := Jwt.tableToken (nestedClaims i)
  claims := nestedClaims
  root := ⟨(initialWorld.run nestedPlatform enrolment).serving (.steady opening 400),
    ⟨⟨406⟩, Jwt.tableToken rootClaims, ["read"], 700 * 1000000000⟩, _,
    Prod.ext (by decide) rfl, rfl⟩
  hop i hi := by
    match i with
    | 0 =>
        exact ⟨rfl,
          (initialWorld.run nestedPlatform (enrolment ++ [granting])).serving (.steady opening 500),
          ⟨Jwt.tableToken childClaims, 160 * 1000000000, ["read"]⟩, _,
          Prod.ext (by decide) rfl, rfl⟩
    | 1 =>
        exact ⟨rfl,
          (initialWorld.run nestedPlatform (enrolment ++ [granting, .steady (.call delegating)
            opening 500])).serving (.steady opening 600),
          ⟨Jwt.tableToken grandchildClaims, 130 * 1000000000, []⟩, _,
          Prod.ext (by decide) rfl, rfl⟩
    | _ + 2 => omega
  signed i hi := by
    match i with
    | 0 => decide
    | 1 => decide
    | 2 => decide
    | _ + 3 => omega

theorem attenuates_enrolled : (∀ i < enrolled.length, enrolled.Narrows i) ∧
    ∀ i ≤ enrolled.length, enrolled.Placed i :=
  enrolled.attenuates

end DelegationChain

end Patroclus
