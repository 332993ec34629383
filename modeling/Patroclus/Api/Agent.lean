import Patroclus.Db.Database
import Patroclus.Token.Issuer
import Patroclus.Token.Verifier
import Patroclus.Gateway

/-!
# The agent-facing endpoints

`request_access`, its dry run `check_access`, `delegate` and `approval_status`.
The authenticated agent is what the middleware has established from the client
key, if anything. The metrics that they update are kept apart, in `Monitored`.
-/

namespace Patroclus

open Foundation

section

variable (p : Platform)

/-- The agent of the request extension. -/
def authenticated (auth : Option Uuid) : Handler Uuid :=
  match auth with
  | some agentId => pure agentId
  | none => raise (.forbidden "request was not authenticated as an agent")

/-- The authenticated agent is the one that the body names. -/
def authenticatedAs (auth : Option Uuid) (agentId : Uuid) : Handler Unit := do
  let presenter ← authenticated auth
  if presenter = agentId then pure ()
  else raise (.forbidden "client key does not belong to the requested agent")

/-- The principal that owns an agent; a failed lookup reads as none. -/
def ownerPrincipal (agent : Agent) : Handler (Option Principal) :=
  match agent.ownerId with
  | none => pure none
  | some ownerId => do
      match ← (Database.getPrincipal p ownerId).attempt with
      | .ok principal => return some principal
      | .error _ => return none

/-- Evaluate the running policy; the call is counted in the session store. -/
def evalEngine (ctx : PolicyContext) : Handler PolicyEvaluation := fun s =>
  let (eval, sessionStore) := s.app.policyEngine.evaluate s.app.sessionStore (s.tape.now s.tick) ctx
  (.ok eval, s.next.withApp fun app => { app with sessionStore })

def getOrCreateSession (sessionId : String) (agentId : Uuid) (principalId : Option Uuid) :
    Handler SessionState := fun s =>
  let (session, sessionStore) :=
    s.app.sessionStore.getOrCreateSession sessionId agentId principalId (s.tape.now s.tick)
  (.ok session, s.next.withApp fun app => { app with sessionStore })

/-! ## Requesting access -/

/-- What a request has been resolved to before any decision is taken. -/
structure Caller where
  agent : Agent
  principal : Option Principal
  presentedChain : Option (List DelegationHop)
  sessionId : String
  session : SessionState

def defaultSessionId (agentId : Uuid) : String := "agent-" ++ agentId.toString ++ "-default"

/-- The principal behind a request, and the chain of the delegation token it presents.
The token must be addressed to the requesting agent. -/
def requestPrincipal (agent : Agent) (req : AccessRequest) :
    Handler (Option Principal × Option (List DelegationHop)) :=
  match req.delegationToken with
  | some token => do
      let claims ← verifyToken p token (some (agentAudience req.agentId))
      let principal ← Database.getPrincipalByEmail p (withoutUserPrefix claims.sub)
      return (principal, claims.act.delegationChain)
  | none => do
      let principal ← ownerPrincipal p agent
      return (principal, none)

def resolveCaller (auth : Option Uuid) (req : AccessRequest) : Handler Caller := do
  authenticatedAs auth req.agentId
  let agent ← Database.getAgent p req.agentId
  let (principal, presentedChain) ← requestPrincipal p agent req
  let sessionId := (req.context.bind (·.sessionId)).getD (defaultSessionId agent.id)
  let session ← getOrCreateSession sessionId agent.id (principal.map (·.id))
  return ⟨agent, principal, presentedChain, sessionId, session⟩

def Caller.context (caller : Caller) (req : AccessRequest) : PolicyContext where
  agent := caller.agent
  principal := caller.principal
  action := req.action
  resource := req.resource
  requestedScopes := req.requestedScopes
  sessionId := some caller.sessionId
  trajectory := caller.session.trajectory

/-- The object that an evaluation's constraints are issued as; a repeated key keeps
its last value. -/
def constraintsObject (constraints : List Constraint) : Option Json :=
  if constraints.isEmpty then none
  else some (.object (constraints.foldl (fun fields c => Json.insertField c.key c.value fields) []))

def Caller.tokenParams (caller : Caller) (req : AccessRequest) (eval : PolicyEvaluation) :
    IssueTokenParams where
  issuer := p.config.tokenIssuer
  subject := (caller.principal.map fun principal => "user:" ++ principal.email).getD
    (agentAudience caller.agent.id)
  agentId := agentAudience caller.agent.id
  scopes := eval.approvedScopes
  audience := req.resource
  ttlSeconds := p.config.defaultTtlSeconds
  delegationDepth := 0
  delegationChain := none
  constraints := constraintsObject eval.constraints

/-- Issue and record the access token of an allowed request. -/
def grantAccess (caller : Caller) (req : AccessRequest) (eval : PolicyEvaluation) :
    Handler AccessResponse := do
  let params := caller.tokenParams p req eval
  let (jwt, jti) ← issue p (.requestAccess caller.agent.id) params
  let expiresAt ← orPanic (params.expiry (← utcNow))
  Database.recordToken p jti none caller.agent.id eval.approvedScopes req.resource expiresAt
  return { AccessResponse.ofEvaluation eval with
    token := some ⟨jwt, expiresAt, eval.approvedScopes, jti⟩ }

/-- File the approval request of a request that needs one. -/
def requestApproval (caller : Caller) (req : AccessRequest) (eval : PolicyEvaluation) :
    Handler AccessResponse := do
  let resourceId := match ← (Database.findResourceByUri req.resource).attempt with
    | .ok resourceId => resourceId
    | .error _ => none
  let approval ← Database.createApprovalRequest p caller.agent.id
    (caller.principal.map (·.id)) resourceId req.action req.requestedScopes 300
  return { AccessResponse.ofEvaluation eval with approval := some ⟨approval.id, "pending"⟩ }

def enactDecision (caller : Caller) (req : AccessRequest) (eval : PolicyEvaluation) :
    Handler AccessResponse :=
  match eval.decision with
  | .allow => grantAccess p caller req eval
  | .requireApproval _ _ => requestApproval p caller req eval
  | .deny => pure (AccessResponse.ofEvaluation eval)

/-- Enter the decision in the session's trajectory and in the audit log. -/
def recordDecision (caller : Caller) (req : AccessRequest) (eval : PolicyEvaluation)
    (response : AccessResponse) : Handler Unit := do
  let timestamp ← utcNow
  let now ← utcNow
  modifySessions (·.recordAction caller.sessionId
    ⟨req.action, req.resource, eval.decision, timestamp⟩ now)
  let _ ← Database.createAuditEntry p {
    agentId := caller.agent.id
    principalId := caller.principal.map (·.id)
    action := req.action
    resource := req.resource
    decision := eval.decision
    reason := eval.reason
    delegationChain := caller.presentedChain.map chainToJson
    tokenJti := response.token.map (·.jti)
    dryRun := false }
  return ()

def requestAccess (auth : Option Uuid) (req : AccessRequest) : Handler AccessResponse := do
  let caller ← resolveCaller p auth req
  if caller.session.killed then
    return .deny "Agent session has been killed by emergency stop"
  else if ← Action.read fun s => s.app.sessionStore.isAgentKilled caller.agent.id then
    return .deny "Agent has been killed by emergency stop"
  else
    let eval ← evalEngine (caller.context req)
    let response ← enactDecision p caller req eval
    recordDecision p caller req eval response
    return response

/-! ## The dry run -/

def checkAccess (auth : Option Uuid) (req : AccessRequest) : Handler CheckResponse := do
  authenticatedAs auth req.agentId
  let agent ← Database.getAgent p req.agentId
  let principal ← ownerPrincipal p agent
  if ← Action.read fun s => s.app.sessionStore.isAgentKilled agent.id then
    return ⟨false, "deny", [], "Agent has been killed by emergency stop"⟩
  else
    let eval ← evalEngine {
      agent := agent
      principal := principal
      action := req.action
      resource := req.resource
      requestedScopes := req.requestedScopes
      sessionId := req.context.bind (·.sessionId)
      trajectory := [] }
    let _ ← Database.createAuditEntry p {
      agentId := agent.id
      principalId := principal.map (·.id)
      action := req.action
      resource := req.resource
      decision := eval.decision
      reason := eval.reason
      delegationChain := none
      tokenJti := none
      dryRun := true }
    return ⟨eval.decision == .allow, eval.decision.name, eval.approvedScopes, eval.reason⟩

/-! ## Delegating -/

/-- The first requested scope that the parent does not have. -/
def escalatingScope (parentScope : String) (scopes : List String) : Option String :=
  scopes.find? fun scope => !(splitWhitespace parentScope).contains scope

/-- `delegation_depth + 1` in `usize`. -/
def nextDepth (claims : AgentClaims) : Nat := (claims.act.delegationDepth + 1) % 2 ^ 64

/-- The checks of `delegate`: the parent is addressed to the presenter, it has the
requested scopes, and it leaves room for one more hop. -/
def admitDelegation (presenter : Uuid) (req : DelegateRequest) : Handler AgentClaims := do
  let claims ← verifyToken p req.parentGrantToken (some (agentAudience presenter))
  match escalatingScope claims.scope req.scopes with
  | some scope => raise (.scopeEscalation scope claims.scope)
  | none =>
      if nextDepth claims > p.config.maxDelegationDepth then
        raise (.delegationDepthExceeded p.config.maxDelegationDepth (nextDepth claims))
      else return claims

/-- The expiry of the child grant and its lifetime in seconds: the earlier of the
parent's expiry and the requested one. -/
def delegationExpiry (claims : AgentClaims) (expiresInSeconds : Nat) : Handler (Instant × Nat) := do
  let parentExpiry ← match Instant.fromTimestamp claims.exp with
    | some expiry => pure expiry
    | none => utcNow
  let requestedExpiry ← orPanic ((← utcNow).addSeconds (asI64 expiresInSeconds))
  let effectiveExpiry : Instant := min parentExpiry requestedExpiry
  let now ← utcNow
  return (effectiveExpiry, (effectiveExpiry.secondsSince now).toNat)

def childChain (claims : AgentClaims) : List DelegationHop :=
  claims.act.delegationChain.getD [] ++ [⟨claims.sub, claims.act.sub⟩]

def childParams (claims : AgentClaims) (req : DelegateRequest) (ttlSeconds : Nat) :
    IssueTokenParams where
  issuer := p.config.tokenIssuer
  subject := claims.sub
  agentId := agentAudience req.subAgentId
  scopes := req.scopes
  audience := agentAudience req.subAgentId
  ttlSeconds := ttlSeconds
  delegationDepth := nextDepth claims
  delegationChain := some (childChain claims)
  constraints := claims.constraints

def delegationReason (claims : AgentClaims) (req : DelegateRequest) : String :=
  "Delegated scopes [" ++ ", ".intercalate req.scopes ++ "] from " ++ claims.act.sub ++
    " (depth " ++ toString (nextDepth claims) ++ "/" ++ toString p.config.maxDelegationDepth ++ ")"

/-- Record the child grant and the delegation. -/
def recordDelegation (claims : AgentClaims) (req : DelegateRequest) (jti : String)
    (expiresAt : Instant) : Handler Unit := do
  Database.recordToken p jti none req.subAgentId req.scopes (agentAudience req.subAgentId) expiresAt
  let _ ← Database.createAuditEntry p {
    agentId := req.subAgentId
    principalId := none
    action := "delegate"
    resource := agentAudience req.subAgentId
    decision := .allow
    reason := delegationReason p claims req
    delegationChain := some (chainToJson (childChain claims))
    tokenJti := some jti
    dryRun := false }
  return ()

-- Unlike its two siblings, this endpoint does not consult the emergency stop.
def delegate (auth : Option Uuid) (req : DelegateRequest) : Handler DelegateResponse := do
  let presenter ← authenticated auth
  let claims ← admitDelegation p presenter req
  let (effectiveExpiry, ttlSeconds) ← delegationExpiry claims req.expiresInSeconds
  let (jwt, jti) ← issue p (.delegate presenter req.parentGrantToken)
    (childParams p claims req ttlSeconds)
  recordDelegation p claims req jti effectiveExpiry
  return ⟨jwt, effectiveExpiry, req.scopes⟩

def approvalStatus (auth : Option Uuid) (id : Uuid) : Handler Database.ApprovalRequest := do
  let presenter ← authenticated auth
  let request ← Database.getApprovalRequest p id
  if request.agentId = presenter then return request
  else raise (.forbidden "approval request belongs to a different agent")

end

end Patroclus
