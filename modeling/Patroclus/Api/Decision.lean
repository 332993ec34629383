import Patroclus.Api.Access

/-!
# The rule that decides an access request

`Decides` says, on the state in which a request arrives, which rule decides it:
nobody has stopped the caller, the rule is the first that covers the request, and
the session conditions and the rate limit of the rule allow it. The results of
the engine inside `request_access` are exactly those of such a rule, and a denial
when there is none.
-/

namespace Patroclus

open Foundation

/-- The session that a request names, or the default session of its agent. -/
def AccessRequest.sessionKey (req : AccessRequest) : String :=
  (req.context.bind (·.sessionId)).getD (defaultSessionId req.agentId)

theorem AccessRequest.sessionKey_of_named {req : AccessRequest} {sessionId : String}
    (named : req.context.bind (·.sessionId) = some sessionId) : req.sessionKey = sessionId := by
  rw [sessionKey, named, Option.getD_some]

/-- The session of a request, as it will be found or created. -/
def SessionStore.sessionFor (store : SessionStore) (req : AccessRequest) : SessionState :=
  (store.sessions.lookup req.sessionKey).getD (.new req.sessionKey req.agentId none 0)

/-- The rule is the first one that covers the request of a registered agent. -/
def Rule.ComesFirstFor (rule : Rule) (app : AppState) (req : AccessRequest) : Prop :=
  ∃ row, app.db.agents.find? (·.id == req.agentId) = some row ∧
    rule.ComesFirst app.policyEngine.rules row.principalType req.action req.resource
      req.requestedScopes

/-- The first rule that covers the request of a registered agent, if there is one. -/
def AppState.firstRule (app : AppState) (req : AccessRequest) : Option Rule :=
  (app.db.agents.find? (·.id == req.agentId)).bind fun row => app.policyEngine.rules.find?
    fun rule => rule.Covers row.principalType req.action req.resource req.requestedScopes

theorem AppState.firstRule_eq_some {app : AppState} {req : AccessRequest} {rule : Rule} :
    app.firstRule req = some rule ↔ rule.ComesFirstFor app req := by
  simp only [firstRule, Option.bind_eq_some_iff, List.find?_eq_some_iff_append,
    Rule.ComesFirstFor, Rule.ComesFirst, decide_eq_true_eq, Bool.not_eq_true',
    decide_eq_false_iff_not]

theorem Rule.ComesFirstFor.unique {rule rule' : Rule} {app : AppState} {req : AccessRequest}
    (h : rule.ComesFirstFor app req) (h' : rule'.ComesFirstFor app req) : rule = rule' := by
  obtain ⟨row, hrow, hfirst⟩ := h
  obtain ⟨row', hrow', hfirst'⟩ := h'
  rw [hrow] at hrow'
  cases hrow'
  exact hfirst.unique hfirst'

/-- The rule decides the request in this state, at this reading of the clock. -/
structure Rule.Decides (rule : Rule) (app : AppState) (req : AccessRequest) (now : Instant) :
    Prop where
  agentAlive : req.agentId ∉ app.sessionStore.killedAgents
  first : ∃ row, app.db.agents.find? (·.id == req.agentId) = some row ∧
    rule.ComesFirst app.policyEngine.rules row.principalType req.action req.resource
      req.requestedScopes
  session : rule.SessionAllows (app.sessionStore.sessionFor req)
  rate : rule.RateAllows app.sessionStore now (rateLimitKey req.sessionKey req.action req.resource)

/-- What the engine returns by a rule. -/
def Rule.evaluation (rule : Rule) (requested : List String) : PolicyEvaluation where
  decision := rule.decisionOf
  approvedScopes := rule.approvedScopes requested
  reason := rule.reason
  constraints := rule.constraints.map fun c => ⟨c.key, c.value⟩

section

variable {p : Platform} {s : Serving}

theorem getOrCreateSession_eq_ok {sessionId : String} {agentId : Uuid} {principalId : Option Uuid}
    {session : SessionState} {finish : Serving} :
    getOrCreateSession sessionId agentId principalId s = (.ok session, finish) ↔
      session = (s.app.sessionStore.getOrCreateSession sessionId agentId principalId
        (s.tape.now s.tick)).1 ∧
      finish = s.next.withApp fun app => { app with
        sessionStore := (s.app.sessionStore.getOrCreateSession sessionId agentId principalId
          (s.tape.now s.tick)).2 } := by
  have hrun : getOrCreateSession sessionId agentId principalId s =
      (.ok (s.app.sessionStore.getOrCreateSession sessionId agentId principalId
        (s.tape.now s.tick)).1, s.next.withApp fun app => { app with
        sessionStore := (s.app.sessionStore.getOrCreateSession sessionId agentId principalId
          (s.tape.now s.tick)).2 }) := rfl
  rw [hrun, Prod.mk.injEq, Except.ok.injEq]
  exact and_congr eq_comm eq_comm

/-- How a resolved caller and the state that it leaves relate to the state before. -/
structure CallerFound (p : Platform) (req : AccessRequest) (s : Serving) (caller : Caller)
    (s₁ : Serving) : Prop where
  agent : ∃ row now now', s.app.db.agents.find? (·.id == req.agentId) = some row ∧
    caller.agent = agentOfRow p row now now'
  sessionId : caller.sessionId = req.sessionKey
  session : ∃ now, caller.session = (s.app.sessionStore.getOrCreateSession req.sessionKey
      req.agentId (caller.principal.map (·.id)) now).1 ∧
    s₁.app = { s.app with sessionStore := (s.app.sessionStore.getOrCreateSession req.sessionKey
      req.agentId (caller.principal.map (·.id)) now).2 }
  ledger : s₁.ledger = s.ledger
  tape : s₁.tape = s.tape

theorem resolveCaller_found {auth : Option Uuid} {req : AccessRequest} {caller : Caller}
    {s₁ : Serving} (run : resolveCaller p auth req s = (.ok caller, s₁)) :
    CallerFound p req s caller s₁ := by
  obtain ⟨-, agent, s₂, principal, chain, s₃, session, hagent, hprincipal, hsession, rfl⟩ :=
    resolveCaller_eq_ok.mp run
  have hid := getAgent_id hagent
  have hstill : s₃.still = s.still := ((keeps_requestPrincipal tickFree_still agent req).eq
    hprincipal).trans ((Database.keeps_getAgent tickFree_still _).eq hagent)
  obtain ⟨-, row, hrow, hagent, -⟩ := getAgent_eq_ok.mp hagent
  obtain ⟨happ, hledger, htape⟩ : s₃.app = s.app ∧ s₃.ledger = s.ledger ∧ s₃.tape = s.tape :=
    ⟨congrArg Prod.fst hstill, congrArg (·.2.1) hstill, congrArg (·.2.2) hstill⟩
  rw [hid] at hsession
  have hkey : (req.context.bind (·.sessionId)).getD (defaultSessionId req.agentId) =
      req.sessionKey := rfl
  rw [hkey] at hsession
  obtain ⟨hcreated, rfl⟩ := getOrCreateSession_eq_ok.mp hsession
  rw [happ] at hcreated
  exact {
    agent := ⟨row, _, _, hrow, hagent⟩
    sessionId := by rw [hid, hkey]
    session := ⟨s₃.tape.now s₃.tick, hcreated, by simp only [Serving.withApp_app,
      Serving.next_app, happ]⟩
    ledger := hledger
    tape := htape }

section

variable {auth : Option Uuid} {req : AccessRequest} {caller : Caller} {s₁ : Serving}

theorem CallerFound.agentId (h : CallerFound p req s caller s₁) :
    caller.agent.id = req.agentId := by
  obtain ⟨row, now, now', hrow, hagent⟩ := h.agent
  have hid := List.find?_some hrow
  rw [hagent]
  exact beq_iff_eq.mp hid

theorem CallerFound.db (h : CallerFound p req s caller s₁) : s₁.app.db = s.app.db := by
  obtain ⟨now, -, happ⟩ := h.session
  rw [happ]

theorem CallerFound.policyEngine (h : CallerFound p req s caller s₁) :
    s₁.app.policyEngine = s.app.policyEngine := by
  obtain ⟨now, -, happ⟩ := h.session
  rw [happ]

theorem CallerFound.killedAgents (h : CallerFound p req s caller s₁) :
    s₁.app.sessionStore.killedAgents = s.app.sessionStore.killedAgents := by
  obtain ⟨now, -, happ⟩ := h.session
  rw [happ, SessionStore.killedAgents_getOrCreateSession]

theorem CallerFound.rateLimits (h : CallerFound p req s caller s₁) :
    s₁.app.sessionStore.rateLimits = s.app.sessionStore.rateLimits := by
  obtain ⟨now, -, happ⟩ := h.session
  rw [happ]
  rw [SessionStore.getOrCreateSession]
  split <;> rfl

/-- The engine will find the session that the caller has been given. -/
theorem CallerFound.lookup (h : CallerFound p req s caller s₁) :
    s₁.app.sessionStore.sessions.lookup req.sessionKey = some caller.session := by
  obtain ⟨now, hsession, happ⟩ := h.session
  rw [happ, hsession, SessionStore.lookup_getOrCreateSession]

/-- The caller's session passes the conditions of a rule as the session of the request does. -/
theorem CallerFound.sessionAllows_iff (h : CallerFound p req s caller s₁) {rule : Rule} :
    rule.SessionAllows caller.session ↔ rule.SessionAllows (s.app.sessionStore.sessionFor req) := by
  obtain ⟨now, hsession, -⟩ := h.session
  rw [hsession, SessionStore.getOrCreateSession, SessionStore.sessionFor]
  cases s.app.sessionStore.sessions.lookup req.sessionKey with
  | some session => exact Iff.rfl
  | none =>
      -- A rule looks at no field in which two new sessions differ.
      exact ⟨fun h => ⟨h.alive, h.actions, h.spend, h.trust, h.prior⟩,
        fun h => ⟨h.alive, h.actions, h.spend, h.trust, h.prior⟩⟩

/-- A rule decides a request of a found caller exactly if the engine selects it for the
caller and it refuses nothing. -/
theorem CallerFound.decides_iff (h : CallerFound p req s caller s₁) {rule : Rule} {now : Instant} :
    rule.Decides s.app req now ↔ caller.agent.id ∉ s₁.app.sessionStore.killedAgents ∧
      s₁.app.policyEngine.firstMatch (caller.context req) = some rule ∧
      rule.checkTemporalConditions s₁.app.sessionStore (caller.context req) = none ∧
      (rule.checkRateLimit s₁.app.sessionStore now (caller.context req)).1 = none := by
  have hsessionId : (caller.context req).sessionId = some req.sessionKey :=
    congrArg some h.sessionId
  rw [YamlEngine.firstMatch_eq_some_iff, Rule.checkTemporalConditions_eq_none hsessionId h.lookup,
    h.sessionAllows_iff, Rule.checkRateLimit_eq_none hsessionId, h.agentId, h.killedAgents,
    h.policyEngine]
  have hrate (key : String) : rule.RateAllows s₁.app.sessionStore now key ↔
      rule.RateAllows s.app.sessionStore now key := by
    rw [Rule.RateAllows, Rule.RateAllows, h.rateLimits]
  obtain ⟨row, now₁, now₂, hrow, hagent⟩ := h.agent
  have htype : (caller.context req).agent.principalType = row.principalType := by
    rw [Caller.context, hagent]
    rfl
  rw [hrate, htype]
  constructor
  · rintro ⟨halive, ⟨row', hrow', hfirst⟩, hsession, hrate⟩
    rw [hrow] at hrow'
    cases hrow'
    exact ⟨halive, hfirst, hsession, hrate⟩
  · rintro ⟨halive, hfirst, hsession, hrate⟩
    exact ⟨halive, ⟨row, hrow, hfirst⟩, hsession, hrate⟩

/-- An evaluation for a living caller that is not a denial is the one of a deciding rule. -/
theorem CallerFound.decides_of_ne_deny (h : CallerFound p req s caller s₁) {now : Instant}
    (alive : caller.agent.id ∉ s₁.app.sessionStore.killedAgents)
    (decision : (s₁.app.policyEngine.evaluate s₁.app.sessionStore now
      (caller.context req)).1.decision ≠ .deny) :
    ∃ rule : Rule, rule.Decides s.app req now ∧
      (s₁.app.policyEngine.evaluate s₁.app.sessionStore now (caller.context req)).1 =
        rule.evaluation req.requestedScopes := by
  obtain ⟨rule, hmatch, htemporal, hrate, heval⟩ := YamlEngine.evaluate_of_ne_deny decision
  exact ⟨rule, h.decides_iff.mpr ⟨alive, hmatch, htemporal, hrate⟩, heval⟩

theorem CallerFound.evaluate_of_decides (h : CallerFound p req s caller s₁) {now : Instant}
    {rule : Rule} (decides : rule.Decides s.app req now) :
    (s₁.app.policyEngine.evaluate s₁.app.sessionStore now (caller.context req)).1 =
      rule.evaluation req.requestedScopes := by
  obtain ⟨-, hmatch, htemporal, hrate⟩ := h.decides_iff.mp decides
  exact YamlEngine.evaluate_of_passes hmatch htemporal hrate

end

theorem evalEngine_eq_ok {ctx : PolicyContext} {eval : PolicyEvaluation} {finish : Serving} :
    evalEngine ctx s = (.ok eval, finish) ↔
      eval = (s.app.policyEngine.evaluate s.app.sessionStore (s.tape.now s.tick) ctx).1 ∧
      finish = s.next.withApp fun app => { app with
        sessionStore := (s.app.policyEngine.evaluate s.app.sessionStore (s.tape.now s.tick)
          ctx).2 } := by
  have hrun : evalEngine ctx s =
      (.ok (s.app.policyEngine.evaluate s.app.sessionStore (s.tape.now s.tick) ctx).1,
        s.next.withApp fun app => { app with
        sessionStore := (s.app.policyEngine.evaluate s.app.sessionStore (s.tape.now s.tick)
          ctx).2 }) := rfl
  rw [hrun, Prod.mk.injEq, Except.ok.injEq]
  exact and_congr eq_comm eq_comm

/-- A living caller's evaluation that is not a denial is the one of a deciding rule. -/
theorem decides_of_evalEngine {auth : Option Uuid} {req : AccessRequest} {caller : Caller}
    {s₁ s₂ : Serving} {eval : PolicyEvaluation} (resolved : resolveCaller p auth req s =
      (.ok caller, s₁)) (alive : caller.agent.id ∉ s₁.app.sessionStore.killedAgents)
    (evaluated : evalEngine (caller.context req) s₁ = (.ok eval, s₂))
    (decision : eval.decision ≠ .deny) :
    ∃ (n : Nat) (rule : Rule), rule.Decides s.app req (s.tape.now n) ∧
      eval = rule.evaluation req.requestedScopes := by
  have hfound := resolveCaller_found resolved
  obtain ⟨rfl, -⟩ := evalEngine_eq_ok.mp evaluated
  obtain ⟨rule, hdecides, hrule⟩ := hfound.decides_of_ne_deny alive decision
  rw [hfound.tape] at hdecides
  exact ⟨s₁.tick, rule, hdecides, hrule⟩

/-- A call that signs an access token is decided by a rule that allows it. -/
theorem AccessAllowed.decides {auth : Option Uuid} {req : AccessRequest} {caller : Caller}
    {s₁ s₂ : Serving} {eval : PolicyEvaluation} (h : AccessAllowed p auth req s caller s₁ eval s₂) :
    ∃ (n : Nat) (rule : Rule), rule.Decides s.app req (s.tape.now n) ∧ rule.decision = "allow" ∧
      eval = rule.evaluation req.requestedScopes := by
  obtain ⟨n, rule, hdecides, hrule⟩ := decides_of_evalEngine h.resolved h.agentAlive h.evaluated
    (by rw [h.allowed]; decide)
  refine ⟨n, rule, hdecides, ?_, hrule⟩
  rw [← Rule.decisionOf_eq_allow, ← h.allowed, hrule]
  rfl

theorem AccessAllowed.tape {auth : Option Uuid} {req : AccessRequest} {caller : Caller}
    {s₁ s₂ : Serving} {eval : PolicyEvaluation} (h : AccessAllowed p auth req s caller s₁ eval s₂) :
    s₂.tape = s.tape := by
  obtain ⟨-, rfl⟩ := evalEngine_eq_ok.mp h.evaluated
  exact (resolveCaller_found h.resolved).tape

/-! ## Issued access tokens -/

/-- An issued access token: the rule that allows it, what was signed, and the answer. -/
structure AccessIssued (p : Platform) (req : AccessRequest) (s : Serving) (caller : Caller)
    (rule : Rule) (minted : Minted) (response : AccessResponse) (finish : Serving) : Prop where
  decides : ∃ n, rule.Decides s.app req (s.tape.now n)
  allow : rule.decision = "allow"
  signed : Signed p (.requestAccess caller.agent.id)
    (caller.tokenParams p req (rule.evaluation req.requestedScopes)) minted
  clock : ∃ n, minted.clock = s.tape.now n
  response : ∃ expiresAt, response =
    { AccessResponse.ofEvaluation (rule.evaluation req.requestedScopes) with
      token := some ⟨minted.token, expiresAt, rule.approvedScopes req.requestedScopes,
        minted.claims.jti⟩ }
  ledger : finish.ledger = s.ledger ++ [minted]

/-- Only an allowed request is answered with a token. -/
theorem enactDecision_token {caller : Caller} {req : AccessRequest} {eval : PolicyEvaluation}
    {response : AccessResponse} {finish : Serving}
    (run : enactDecision p caller req eval s = (.ok response, finish))
    (token : response.token ≠ none) : eval.decision = .allow := by
  cases hdecision : eval.decision with
  | allow => rfl
  | requireApproval approver reason =>
      rw [enactDecision, hdecision] at run
      obtain ⟨resourceId, s₁, -, run⟩ := Action.bind_ok_iff.mp run
      obtain ⟨approval, s₂, -, run⟩ := Action.bind_ok_iff.mp run
      cases run
      exact absurd rfl token
  | deny =>
      rw [enactDecision, hdecision] at run
      cases run
      exact absurd rfl token

/-- A request is denied if the rule that comes first refuses its session. -/
theorem requestAccess_refused {auth : Option Uuid} {req : AccessRequest} {response : AccessResponse}
    {finish : Serving} {rule : Rule}
    (run : requestAccess p auth req s = (.ok response, finish))
    (first : rule.ComesFirstFor s.app req)
    (refuses : ¬ rule.SessionAllows (s.app.sessionStore.sessionFor req)) :
    response.decision = "deny" := by
  rcases requestAccess_eq_ok.mp run with ⟨caller, -, -, rfl⟩ | ⟨caller, -, -, -, rfl⟩ |
    ⟨caller, s₁, eval, s₂, s₃, hdecided⟩
  · rfl
  · rfl
  · by_cases hdeny : eval.decision = .deny
    · rw [enactDecision_decision hdecided.enacted, hdeny]
      rfl
    · obtain ⟨n, rule', hdecides, -⟩ := decides_of_evalEngine hdecided.resolved
        hdecided.agentAlive hdecided.evaluated hdeny
      have hsame : rule' = rule := Rule.ComesFirstFor.unique hdecides.first first
      rw [hsame] at hdecides
      exact absurd hdecides.session refuses

/-- A dry run that finds its session is denied if the rule that comes first refuses it. -/
theorem checkAccess_refused {auth : Option Uuid} {req : AccessRequest} {response : CheckResponse}
    {finish : Serving} {rule : Rule} {sessionId : String} {session : SessionState}
    (run : checkAccess p auth req s = (.ok response, finish))
    (first : rule.ComesFirstFor s.app req)
    (named : req.context.bind (·.sessionId) = some sessionId)
    (found : s.app.sessionStore.sessions.lookup sessionId = some session)
    (refuses : ¬ rule.SessionAllows session) : response.decision = "deny" := by
  obtain ⟨-, agent, s₁, hagent, ⟨-, rfl⟩ | ⟨-, principal, s₂, eval, s₃, -, happ, -, heval, rfl⟩⟩ :=
    checkAccess_ok run
  · rfl
  · obtain ⟨-, row, hrow, hrowAgent, -⟩ := getAgent_eq_ok.mp hagent
    obtain ⟨rfl, -⟩ := evalEngine_eq_ok.mp heval
    by_cases hdeny : (s₂.app.policyEngine.evaluate s₂.app.sessionStore (s₂.tape.now s₂.tick)
        (req.rehearsal agent principal)).1.decision = .deny
    · rw [hdeny]
      rfl
    · obtain ⟨rule', hmatch, htemporal, -⟩ := YamlEngine.evaluate_of_ne_deny hdeny
      have htype : (req.rehearsal agent principal).agent.principalType = row.principalType := by
        rw [hrowAgent]
        rfl
      rw [YamlEngine.firstMatch_eq_some_iff, htype, happ] at hmatch
      have hsame : rule' = rule := Rule.ComesFirstFor.unique ⟨row, hrow, hmatch⟩ first
      rw [happ, Rule.checkTemporalConditions_eq_none named found, hsame] at htemporal
      exact absurd htemporal refuses

theorem requestAccess_issuedTo {auth : Option Uuid} {req : AccessRequest}
    {response : AccessResponse} {finish : Serving}
    (run : requestAccess p auth req s = (.ok response, finish)) (token : response.token ≠ none) :
    ∃ caller rule minted, CallerResolved p auth req s caller ∧
      AccessIssued p req s caller rule minted response finish := by
  rcases requestAccess_eq_ok.mp run with ⟨caller, -, -, rfl⟩ | ⟨caller, -, -, -, rfl⟩ |
    ⟨caller, s₁, eval, s₂, s₃, hdecided⟩
  · exact absurd rfl token
  · exact absurd rfl token
  · have hallow := enactDecision_token hdecided.enacted token
    have hallowed : AccessAllowed p auth req s caller s₁ eval s₂ :=
      ⟨hdecided.resolved, hdecided.sessionAlive, hdecided.agentAlive, hdecided.evaluated, hallow⟩
    obtain ⟨n, rule, hdecides, hrule, rfl⟩ := hallowed.decides
    have henacted := hdecided.enacted
    rw [enactDecision, hallow] at henacted
    obtain ⟨minted, expiresAt, row, hgranted⟩ := grantAccess_granted henacted
    have hstill : s₂.tape = s.tape ∧ s₂.ledger = s.ledger := by
      obtain ⟨-, rfl⟩ := evalEngine_eq_ok.mp hdecided.evaluated
      have hfound := resolveCaller_found hdecided.resolved
      exact ⟨hfound.tape, hfound.ledger⟩
    have hrecorded : finish.ledger = s₃.ledger := congrArg Guarded.ledger
      ((keeps_recordDecision caller req _ response).eq hdecided.recorded)
    exact ⟨caller, rule, minted, resolveCaller_resolved hdecided.resolved, {
      decides := ⟨n, hdecides⟩
      allow := hrule
      signed := sign_signed hgranted.signed
      clock := ⟨_, by rw [sign_clock hgranted.signed, hstill.1]⟩
      response := ⟨expiresAt, hgranted.response_eq⟩
      ledger := by rw [hrecorded, hgranted.ledger, hstill.2] }⟩

theorem requestAccess_issued {auth : Option Uuid} {req : AccessRequest} {response : AccessResponse}
    {finish : Serving} (run : requestAccess p auth req s = (.ok response, finish))
    (token : response.token ≠ none) :
    ∃ caller rule minted, AccessIssued p req s caller rule minted response finish := by
  obtain ⟨caller, rule, minted, -, hissued⟩ := requestAccess_issuedTo run token
  exact ⟨caller, rule, minted, hissued⟩

end

end Patroclus
