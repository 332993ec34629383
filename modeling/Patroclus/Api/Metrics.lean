import Patroclus.Api.Server
import Patroclus.Foundation.Instrument

/-!
# The metrics of the server

The counters of `Metrics`, the handlers that update them, and the scrape that serves them.
A decision is counted when the policy has been evaluated, a token when its row has been
stored. A `MonitoredWorld` is a world with its metrics; a restart begins with new ones. The
latency of requests and the rendering of the families are not modelled.
-/

namespace Patroclus

open Foundation

structure Metrics where
  /-- The decisions by outcome and action. -/
  authzDecisions : String × String → Nat
  tokensIssued : Nat
  activeSessions : Int
  approvalQueueDepth : Int

namespace Metrics

def new : Metrics := ⟨fun _ => 0, 0, 0, 0⟩

def recordDecision (outcome action : String) (metrics : Metrics) : Metrics :=
  let count := metrics.authzDecisions (outcome, action)
  { metrics with
    authzDecisions := Function.update metrics.authzDecisions (outcome, action) (count + 1) }

/-- `tokens_issued.inc()` -/
def countToken (metrics : Metrics) : Metrics :=
  { metrics with tokensIssued := metrics.tokensIssued + 1 }

end Metrics

/-- A handler that updates metrics beside the state that it serves. -/
abbrev Monitored (α : Type) : Type := Action (Serving × Metrics) Failure α

instance : MonadLift Handler Monitored := ⟨Action.uncounted⟩

section

variable (p : Platform)

namespace Monitored

def grantAccess (caller : Caller) (req : AccessRequest) (eval : PolicyEvaluation) :
    Monitored AccessResponse := do
  let params := caller.tokenParams p req eval
  let (jwt, jti) ← issue p (.requestAccess caller.agent.id) params
  let expiresAt ← orPanic (params.expiry (← utcNow))
  Database.recordToken p jti none caller.agent.id eval.approvedScopes req.resource expiresAt
  Action.count Metrics.countToken
  return { AccessResponse.ofEvaluation eval with
    token := some ⟨jwt, expiresAt, eval.approvedScopes, jti⟩ }

def enactDecision (caller : Caller) (req : AccessRequest) (eval : PolicyEvaluation) :
    Monitored AccessResponse :=
  match eval.decision with
  | .allow => grantAccess p caller req eval
  | .requireApproval _ _ => requestApproval p caller req eval
  | .deny => pure (AccessResponse.ofEvaluation eval)

def requestAccess (auth : Option Uuid) (req : AccessRequest) : Monitored AccessResponse := do
  let caller ← resolveCaller p auth req
  if caller.session.killed then
    return .deny "Agent session has been killed by emergency stop"
  else if ← (Action.read fun s => s.app.sessionStore.isAgentKilled caller.agent.id :
      Handler Bool) then
    return .deny "Agent has been killed by emergency stop"
  else
    let eval ← evalEngine (caller.context req)
    Action.count (Metrics.recordDecision eval.decision.name req.action)
    let response ← enactDecision p caller req eval
    recordDecision p caller req eval response
    return response

def checkAccess (auth : Option Uuid) (req : AccessRequest) : Monitored CheckResponse := do
  authenticatedAs auth req.agentId
  let agent ← Database.getAgent p req.agentId
  let principal ← ownerPrincipal p agent
  if ← (Action.read fun s => s.app.sessionStore.isAgentKilled agent.id : Handler Bool) then
    return ⟨false, "deny", [], "Agent has been killed by emergency stop"⟩
  else
    let eval ← evalEngine {
      agent := agent
      principal := principal
      action := req.action
      resource := req.resource
      requestedScopes := req.requestedScopes
      sessionId := req.context.bind (·.sessionId)
      trajectory := [] }
    Action.count (Metrics.recordDecision eval.decision.name req.action)
    let _ ← Database.createAuditEntry p {
      agentId := agent.id
      principalId := principal.map (·.id)
      action := req.action
      resource := req.resource
      decision := eval.decision
      reason := eval.reason
      delegationChain := none
      tokenJti := none
      dryRun := true }
    return ⟨eval.decision == .allow, eval.decision.name, eval.approvedScopes, eval.reason⟩

def recordDelegation (claims : AgentClaims) (req : DelegateRequest) (jti : String)
    (expiresAt : Instant) : Monitored Unit := do
  Database.recordToken p jti none req.subAgentId req.scopes (agentAudience req.subAgentId) expiresAt
  Action.count Metrics.countToken
  let _ ← Database.createAuditEntry p {
    agentId := req.subAgentId
    principalId := none
    action := "delegate"
    resource := agentAudience req.subAgentId
    decision := .allow
    reason := delegationReason p claims req
    delegationChain := some (chainToJson (childChain claims))
    tokenJti := some jti
    dryRun := false }
  return ()

def delegate (auth : Option Uuid) (req : DelegateRequest) : Monitored DelegateResponse := do
  let presenter ← authenticated auth
  let claims ← admitDelegation p presenter req
  let (effectiveExpiry, ttlSeconds) ← delegationExpiry claims req.expiresInSeconds
  let (jwt, jti) ← issue p (.delegate presenter req.parentGrantToken)
    (childParams p claims req ttlSeconds)
  recordDelegation p claims req jti effectiveExpiry
  return ⟨jwt, effectiveExpiry, req.scopes⟩

def principalDelegate (req : PrincipalDelegateRequest) : Monitored PrincipalDelegateResponse := do
  let agent ← Database.getAgent p req.agentId
  match agent.ownerId with
  | none => (raise (.agentNotFound "agent has no owner principal") : Handler _)
  | some principalId =>
      let principal ← Database.getPrincipal p principalId
      let expiresAt ← orPanic ((← utcNow).addSeconds (asI64 req.expiresInSeconds))
      let grantId ← Database.createGrant p agent.id principalId none req.scopes req.constraints
        expiresAt
      let (jwt, jti) ← issue p (.principalDelegate grantId) (grantParams p principal agent req)
      Database.recordToken p jti (some grantId) agent.id req.scopes (agentAudience agent.id)
        expiresAt
      Action.count Metrics.countToken
      return ⟨grantId, jwt, req.scopes, expiresAt⟩

/-- The other calls update no metrics. -/
def serve : Call → Monitored Reply
  | .requestAccess auth req => do return .access (← requestAccess p auth req)
  | .check auth req => do return .check (← checkAccess p auth req)
  | .delegate auth req => do return .delegation (← delegate p auth req)
  | .principalDelegate req => do return .grant (← principalDelegate p req)
  | call => Patroclus.serve p call

end Monitored

/-- `prometheus_metrics`: the gauges are set before the families are served. -/
def prometheusMetrics : Monitored Metrics := do
  let sessions ← (listSessions : Handler _)
  let pending ← (Database.listPendingApprovals p).attempt
  Action.count fun metrics => { metrics with
    activeSessions := sessions.length
    approvalQueueDepth := ((pending.toOption.map List.length).getD 0 : Nat) }
  Action.read Prod.snd

end

/-! ## Runs -/

structure MonitoredWorld where
  world : World
  metrics : Metrics

inductive MonitoredInput where
  | server (input : Input)
  | scrape (arrival : Instant) (tape : Tape)

namespace MonitoredWorld

section

variable (p : Platform)

def serving (m : MonitoredWorld) (tape : Tape) : Serving × Metrics :=
  (m.world.serving tape, m.metrics)

def answer (m : MonitoredWorld) (input : Input) : Except Failure Reply :=
  match input.event with
  | .call call =>
      if m.world.up then (Monitored.serve p call (m.serving input.tape)).1 else .error .unreachable
  | .restart => .error .unreachable

/-- What a scrape is served. -/
def scraped (m : MonitoredWorld) (tape : Tape) : Except Failure Metrics :=
  if m.world.up then (prometheusMetrics p (m.serving tape)).1 else .error .unreachable

/-- The world in which a handler has ended. -/
def after (finish : Serving × Metrics) (arrival : Instant) : MonitoredWorld :=
  ⟨⟨finish.1.app, finish.1.ledger, true, arrival⟩, finish.2⟩

def step (m : MonitoredWorld) : MonitoredInput → MonitoredWorld
  | .server input =>
      match input.event with
      | .call call =>
          if m.world.up then
            after (Monitored.serve p call (m.serving input.tape)).2 input.arrival
          else ⟨{ m.world with clock := input.arrival }, m.metrics⟩
      | .restart => ⟨m.world.step p input, .new⟩
  | .scrape arrival tape =>
      if m.world.up then after (prometheusMetrics p (m.serving tape)).2 arrival
      else ⟨{ m.world with clock := arrival }, m.metrics⟩

def run (m : MonitoredWorld) (inputs : List MonitoredInput) : MonitoredWorld :=
  inputs.foldl (step p) m

end

end MonitoredWorld

/-- A server that has never been started. -/
def initialMonitored : MonitoredWorld := ⟨initialWorld, .new⟩

end Patroclus
