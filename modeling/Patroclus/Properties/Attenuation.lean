import Patroclus.Api.Caller

/-!
# Using a delegation

The token for an access request is assembled from the policy, the configuration
and the principal. Of a delegation token that the request presents, only the
subject and the chain are used. So the access token is within the delegation
exactly if the policy rule and the lifetime happen to stay within it.
-/

namespace Patroclus

open Foundation

/-- The value that the claims give to a constraint. -/
def AgentClaims.constraint (claims : AgentClaims) (key : String) : Option Json :=
  claims.constraints.bind (Json.field key)

/-- The holder of `claims` can do no more, for no longer, and under no fewer constraints
than the holder of `parent`. -/
structure AgentClaims.Within (claims parent : AgentClaims) : Prop where
  scope : ∀ word ∈ splitWhitespace claims.scope, word ∈ splitWhitespace parent.scope
  expiry : claims.exp ≤ parent.exp
  constraints : ∀ key value, parent.constraint key = some value →
    claims.constraint key = some value

/-- The value that a rule sets a constraint to; of several, the last. -/
def Rule.constraint (rule : Rule) (key : String) : Option Json :=
  (rule.constraints.reverse.find? (·.key == key)).map (·.value)

/-- What a rule gives for a request, at this reading of the clock, is within a delegation. -/
structure Rule.StaysWithin (p : Platform) (rule : Rule) (req : AccessRequest) (clock : Instant)
    (delegation : AgentClaims) : Prop where
  scope : ∀ scope ∈ rule.approvedScopes req.requestedScopes, ∀ word ∈ splitWhitespace scope,
    word ∈ splitWhitespace delegation.scope
  expiry : clock.timestamp + asI64 p.config.defaultTtlSeconds ≤ delegation.exp
  constraints : ∀ key value, delegation.constraint key = some value →
    rule.constraint key = some value

section

variable {p : Platform}

/-- Fields that are inserted one after the other: the last one with a key is read. -/
theorem lookup_foldl_insertField (constraints : List Constraint) (fields : List (String × Json))
    (key : String) :
    (constraints.foldl (fun fields c => Json.insertField c.key c.value fields) fields).lookup key =
      ((constraints.reverse.find? (·.key == key)).map (·.value)).or (fields.lookup key) := by
  induction constraints generalizing fields with
  | nil => rfl
  | cons c rest ih =>
      rw [List.foldl_cons, ih, List.reverse_cons, List.find?_append]
      cases rest.reverse.find? (·.key == key) with
      | some found => rfl
      | none =>
          by_cases hkey : c.key = key
          · subst hkey
            simp
          · have hne : key ≠ c.key := fun h => hkey h.symm
            simp [Json.lookup_insertField_of_ne hne, hkey]

/-- The issued constraints are the last ones that the rule sets. -/
theorem constraintsObject_field (rule : Rule) (requested : List String) (key : String) :
    (constraintsObject (rule.evaluation requested).constraints).bind (Json.field key) =
      rule.constraint key := by
  have hmap : (rule.evaluation requested).constraints =
      rule.constraints.map fun c => ⟨c.key, c.value⟩ := rfl
  rw [constraintsObject, hmap]
  cases hconstraints : rule.constraints with
  | nil => simp [Rule.constraint, hconstraints]
  | cons c rest =>
      have hlookup := lookup_foldl_insertField
        (rule.constraints.map fun c => ⟨c.key, c.value⟩) [] key
      rw [← List.map_reverse, List.find?_map, Option.map_map, List.lookup_nil, Option.or_none,
        hconstraints] at hlookup
      rw [Rule.constraint, hconstraints]
      exact hlookup

/-- Every access token issued on a delegation is within it exactly if the rule that allows
the request stays within it. -/
theorem within_iff_staysWithin {auth : Option Uuid} {req : AccessRequest} {token : String}
    {response : AccessResponse} {s finish : Serving} (presents : req.delegationToken = some token)
    (run : requestAccess p auth req s = (.ok response, finish)) (issued : response.token ≠ none) :
    ∃ k n caller rule minted delegation,
      TokenVerifier.verify p s.app.jtiStore (s.tape.now k) (s.tape.now (k + 1)) token
        (some (agentAudience req.agentId)) = .ok delegation ∧
      AccessIssued p req s caller rule minted response finish ∧
      minted.clock = s.tape.now n ∧
      (minted.claims.Within delegation ↔
        rule.StaysWithin p req (s.tape.now n) delegation) := by
  obtain ⟨caller', s₁, hresolve⟩ := requestAccess_resolved run
  obtain ⟨delegation, hverify⟩ := (resolves_of_run hresolve).delegation token presents
  obtain ⟨caller, rule, minted, hissued⟩ := requestAccess_issued run issued
  obtain ⟨n, hclock⟩ := hissued.clock
  refine ⟨_, n, caller, rule, minted, delegation, hverify, hissued, hclock, ?_⟩
  obtain ⟨-, -, ⟨iat, exp, jti, hclaims⟩, expiry, hexpiry, hexp⟩ := hissued.signed
  have hscope : splitWhitespace minted.claims.scope =
      (rule.approvedScopes req.requestedScopes).flatMap splitWhitespace := by
    rw [hclaims]
    exact splitWhitespace_joinScopes _
  have hends : minted.claims.exp =
      (s.tape.now n).timestamp + asI64 p.config.defaultTtlSeconds := by
    have hsum := Instant.addSeconds_eq hexpiry
    rw [hexp, hsum, Instant.timestamp_add, hclock]
    rfl
  have hconstraint (key : String) : minted.claims.constraint key = rule.constraint key := by
    rw [hclaims]
    exact constraintsObject_field rule req.requestedScopes key
  constructor
  · intro h
    refine ⟨fun scope hmem word hword => h.scope word ?_, hends ▸ h.expiry,
      fun key value hvalue => ?_⟩
    · rw [hscope]
      exact List.mem_flatMap.mpr ⟨scope, hmem, hword⟩
    · rw [← hconstraint]
      exact h.constraints key value hvalue
  · intro h
    refine ⟨fun word hword => ?_, hends ▸ h.expiry, fun key value hvalue => ?_⟩
    · rw [hscope] at hword
      obtain ⟨scope, hmem, hword⟩ := List.mem_flatMap.mp hword
      exact h.scope scope hmem word hword
    · rw [hconstraint]
      exact h.constraints key value hvalue

end

/-- A request of the enrolled agent for two scopes, on its root grant for one. -/
def widerRequest : AccessRequest :=
  ⟨⟨300⟩, "use", "db", ["read", "write"], some (Jwt.tableToken rootClaims), none⟩

def widerClaims : AgentClaims :=
  { rootClaims with
    scope := "read write"
    aud := "db"
    exp := 1000
    jti := (⟨610⟩ : Uuid).toString }

/-- A platform that can sign the root grant and the access token, under an open policy. -/
def openPlatform : Platform :=
  .concrete (Jwt.ofTable [rootClaims, widerClaims] (by decide))
    (parseKnown allowAll [.plain "allow" "test"])

/-- The wider request is about to be served. -/
def widerServing : Serving :=
  (initialWorld.run openPlatform (enrolment ++ [granting, permitting])).serving
    (.steady opening 600)

def widerResponse : AccessResponse where
  decision := "allow"
  token := some ⟨Jwt.tableToken widerClaims, 1000 * 1000000000, ["read", "write"], widerClaims.jti⟩
  approval := none
  reason := "test"
  approvedScopes := ["read", "write"]

theorem requestAccess_wider : requestAccess openPlatform (some ⟨300⟩) widerRequest widerServing =
    (.ok widerResponse, (requestAccess openPlatform (some ⟨300⟩) widerRequest widerServing).2) :=
  Prod.ext (by decide) rfl

theorem within_iff_staysWithin_wider :
    ∃ k n caller rule minted delegation,
      TokenVerifier.verify openPlatform widerServing.app.jtiStore (widerServing.tape.now k)
        (widerServing.tape.now (k + 1)) (Jwt.tableToken rootClaims)
        (some (agentAudience widerRequest.agentId)) = .ok delegation ∧
      AccessIssued openPlatform widerRequest widerServing caller rule minted widerResponse
        (requestAccess openPlatform (some ⟨300⟩) widerRequest widerServing).2 ∧
      minted.clock = widerServing.tape.now n ∧
      (minted.claims.Within delegation ↔
        rule.StaysWithin openPlatform widerRequest (widerServing.tape.now n) delegation) := by
  have hissued : widerResponse.token ≠ none := nofun
  exact within_iff_staysWithin rfl requestAccess_wider hissued

/-- The confinement as a promise about every request that presents a delegation. -/
def DelegationConfines (p : Platform) : Prop :=
  ∀ (s finish : Serving) (auth : Option Uuid) (req : AccessRequest) (token : String)
    (response : AccessResponse) (info : IssuedTokenInfo) (decodeNow now : Instant)
    (delegation claims : AgentClaims), req.delegationToken = some token →
    TokenVerifier.verify p s.app.jtiStore decodeNow now token (some (agentAudience req.agentId)) =
      .ok delegation →
    requestAccess p auth req s = (.ok response, finish) → response.token = some info →
    p.jwt.payload info.jwt = some claims → claims.Within delegation

/-- On a grant to read for ten minutes, the agent receives a token to read and write
for fifteen. -/
theorem not_delegationConfines : ¬ ∀ p, DelegationConfines p := by
  intro h
  have hwithin := h openPlatform widerServing _ (some ⟨300⟩) widerRequest _ widerResponse _
    opening opening rootClaims widerClaims rfl
    (TokenVerifier.verify_ok_iff.mpr ⟨by decide, by decide, by decide, by decide⟩)
    requestAccess_wider rfl (by decide)
  have hscope := hwithin.scope "write" (by decide)
  revert hscope
  decide

end Patroclus
