import Patroclus.Api.Decision

/-!
# The scopes of an access token

A token carries its scopes as one string, joined with spaces, and its verifiers
read the words of that string. The policy has compared each requested scope with
the patterns as a whole. Verifiers read the scopes that the policy has approved
exactly if each of these is a single word; a scope with a blank inside is read as
several, which no pattern has to admit.
-/

namespace Patroclus

open Foundation

/-- A verifier of the claims reads the scopes that were reported as approved, and each is
admitted by a pattern of the rule, if it lists any. -/
structure ScopesReadBack (rule : Rule) (claims : AgentClaims) (response : AccessResponse) :
    Prop where
  admitted : rule.scopes ≠ [] → ∀ word ∈ splitWhitespace claims.scope,
    rule.admitsScope word = true
  reported : splitWhitespace claims.scope = response.approvedScopes

section

variable {p : Platform}

theorem Rule.mem_approvedScopes {rule : Rule} {requested : List String} {scope : String} :
    scope ∈ rule.approvedScopes requested ↔
      scope ∈ requested ∧ (rule.scopes ≠ [] → rule.admitsScope scope = true) := by
  rw [Rule.approvedScopes]
  cases rule.scopes with
  | nil => simp
  | cons pattern rest => simp

/-- For every issued access token, a verifier reads the approved scopes exactly if every
requested scope that the rule admits is one word. -/
theorem scopesReadBack_iff {auth : Option Uuid} {req : AccessRequest} {response : AccessResponse}
    {s finish : Serving} (run : requestAccess p auth req s = (.ok response, finish))
    (issued : response.token ≠ none) :
    ∃ caller rule minted, AccessIssued p req s caller rule minted response finish ∧
      (ScopesReadBack rule minted.claims response ↔ ∀ scope ∈ req.requestedScopes,
        (rule.scopes ≠ [] → rule.admitsScope scope = true) → IsScopeWord scope) := by
  obtain ⟨caller, rule, minted, hissued⟩ := requestAccess_issued run issued
  refine ⟨caller, rule, minted, hissued, ?_⟩
  obtain ⟨-, -, ⟨iat, exp, jti, hclaims⟩, -⟩ := hissued.signed
  have hscope : minted.claims.scope = joinScopes (rule.approvedScopes req.requestedScopes) := by
    rw [hclaims]
    rfl
  have hreported : response.approvedScopes = rule.approvedScopes req.requestedScopes := by
    obtain ⟨expiresAt, hresponse⟩ := hissued.response
    rw [hresponse]
    rfl
  have hwords : splitWhitespace minted.claims.scope = response.approvedScopes ↔
      ∀ scope ∈ req.requestedScopes, (rule.scopes ≠ [] → rule.admitsScope scope = true) →
        IsScopeWord scope := by
    rw [hscope, hreported, splitWhitespace_joinScopes_eq_iff]
    simp only [Rule.mem_approvedScopes, and_imp]
  constructor
  · intro h
    exact hwords.mp h.reported
  · intro h
    have hread := hwords.mpr h
    refine ⟨fun hlists word hword => ?_, hread⟩
    rw [hread, hreported] at hword
    exact (Rule.mem_approvedScopes.mp hword).2 hlists

end

/-- A policy that allows the scopes below `db:`. -/
def databaseOnly : String :=
  "- name: db\n  scopes: [\"db:*\"]\n  decision: allow\n  reason: test\n"

def databaseRule : Rule := { Rule.plain "allow" "test" with scopes := ["db:*"] }

/-- A request for one scope, in which a blank hides a second. -/
def injectingRequest : AccessRequest := ⟨⟨300⟩, "use", "db", ["db:read admin"], none, none⟩

def injectedClaims : AgentClaims :=
  { rootClaims with
    scope := "db:read admin"
    aud := "db"
    exp := 1000
    jti := (⟨608⟩ : Uuid).toString }

def databasePlatform : Platform :=
  .concrete (Jwt.ofTable [injectedClaims] (by decide)) (parseKnown databaseOnly [databaseRule])

def injectingServing : Serving :=
  (initialWorld.run databasePlatform (enrolment ++
    [.steady (.call (.createPolicy "db" "yaml" databaseOnly)) opening 350])).serving
      (.steady opening 600)

def injectingResponse : AccessResponse where
  decision := "allow"
  token := some ⟨Jwt.tableToken injectedClaims, 1000 * 1000000000, ["db:read admin"],
    injectedClaims.jti⟩
  approval := none
  reason := "test"
  approvedScopes := ["db:read admin"]

theorem requestAccess_injecting : requestAccess databasePlatform (some ⟨300⟩) injectingRequest
    injectingServing = (.ok injectingResponse,
      (requestAccess databasePlatform (some ⟨300⟩) injectingRequest injectingServing).2) :=
  Prod.ext (by decide) rfl

theorem scopesReadBack_iff_injecting :
    ∃ caller rule minted, AccessIssued databasePlatform injectingRequest injectingServing caller
        rule minted injectingResponse
        (requestAccess databasePlatform (some ⟨300⟩) injectingRequest injectingServing).2 ∧
      (ScopesReadBack rule minted.claims injectingResponse ↔
        ∀ scope ∈ injectingRequest.requestedScopes,
          (rule.scopes ≠ [] → rule.admitsScope scope = true) → IsScopeWord scope) := by
  have hissued : injectingResponse.token ≠ none := nofun
  exact scopesReadBack_iff requestAccess_injecting hissued

/-- The reading back as a promise about every issued access token. -/
def ScopesNotInjected (p : Platform) : Prop :=
  ∀ (s finish : Serving) (auth : Option Uuid) (req : AccessRequest) (response : AccessResponse)
    (info : IssuedTokenInfo) (claims : AgentClaims),
    requestAccess p auth req s = (.ok response, finish) → response.token = some info →
    p.jwt.payload info.jwt = some claims →
    ∃ (n : Nat) (rule : Rule), rule.Decides s.app req (s.tape.now n) ∧
      ScopesReadBack rule claims response

/-- A request for `db:read admin` passes the pattern `db:*`, and its token has the scope
`admin`. -/
theorem not_scopesNotInjected : ¬ ∀ p, ScopesNotInjected p := by
  intro h
  obtain ⟨n, rule, -, hread⟩ := h databasePlatform injectingServing _ (some ⟨300⟩)
    injectingRequest injectingResponse _ injectedClaims requestAccess_injecting rfl (by decide)
  have hreported := hread.reported
  revert hreported
  decide

end Patroclus
