import Patroclus.Api.Effects

/-!
# Executions of the access endpoints

What has happened when `request_access` or `check_access` has answered: one
inversion theorem per handler, in the order of its steps.
-/

namespace Patroclus

open Foundation

section

variable {p : Platform} {s finish : Serving}

theorem authenticatedAs_eq_ok {auth : Option Uuid} {agentId : Uuid} :
    authenticatedAs auth agentId s = (.ok (), finish) ↔ auth = some agentId ∧ s = finish := by
  rw [authenticatedAs]
  rw [Action.bind_ok_iff]
  constructor
  · rintro ⟨presenter, middle, hauth, hcheck⟩
    cases auth with
    | none => cases hauth
    | some presenter' =>
        cases hauth
        split at hcheck
        · rename_i heq
          cases hcheck
          exact ⟨by rw [heq], rfl⟩
        · cases hcheck
  · rintro ⟨rfl, rfl⟩
    exact ⟨agentId, s, rfl, by rw [if_pos rfl]; rfl⟩

/-- The agent that `agentFromRow` reads, with the clock readings for dates that do not parse. -/
def agentOfRow (p : Platform) (row : AgentRow) (now now' : Instant) : Agent where
  id := row.id
  name := row.name
  principalType := row.principalType
  publicKey := row.publicKey
  did := row.did
  ownerId := row.ownerId
  status := row.status
  clientKeyHash := row.clientKeyHash
  createdAt := (p.parseFromRfc3339 row.createdAt).getD now
  updatedAt := (p.parseFromRfc3339 row.updatedAt).getD now'

theorem getAgent_eq_ok {id : Uuid} {agent : Agent} :
    Database.getAgent p id s = (.ok agent, finish) ↔ s.tape.fault s.tick = none ∧
      ∃ row, s.app.db.agents.find? (·.id == id) = some row ∧
        agent = agentOfRow p row (s.tape.now (s.tick + 1)) (s.tape.now (s.tick + 2)) ∧
        finish = s.next.next.next := by
  rw [Database.getAgent, Action.bind_ok_iff]
  constructor
  · rintro ⟨found, s₁, hquery, run⟩
    obtain ⟨hfault, hfound, rfl⟩ := query_eq_ok.mp hquery
    cases found with
    | none => exact absurd run raise_ne_ok
    | some row =>
        cases run
        exact ⟨hfault, row, hfound.symm, rfl, rfl⟩
  · rintro ⟨hfault, row, hfound, rfl, rfl⟩
    exact ⟨some row, s.next, query_eq_ok.mpr ⟨hfault, hfound.symm, rfl⟩, rfl⟩

/-- The agent that is read has the id that was asked for. -/
theorem getAgent_id {id : Uuid} {agent : Agent}
    (run : Database.getAgent p id s = (.ok agent, finish)) : agent.id = id := by
  obtain ⟨-, row, hfound, rfl, -⟩ := getAgent_eq_ok.mp run
  have hid := List.find?_some hfound
  exact beq_iff_eq.mp hid

/-- What a resolved caller is made of. -/
structure CallerResolved (p : Platform) (auth : Option Uuid) (req : AccessRequest) (s : Serving)
    (caller : Caller) : Prop where
  authenticated : auth = some req.agentId
  agentId : caller.agent.id = req.agentId
  sessionId : caller.sessionId =
    (req.context.bind (·.sessionId)).getD (defaultSessionId req.agentId)

theorem resolveCaller_eq_ok {auth : Option Uuid} {req : AccessRequest} {caller : Caller} :
    resolveCaller p auth req s = (.ok caller, finish) ↔
      auth = some req.agentId ∧ ∃ agent s₁ principal chain s₂ session,
        Database.getAgent p req.agentId s = (.ok agent, s₁) ∧
        requestPrincipal p agent req s₁ = (.ok (principal, chain), s₂) ∧
        getOrCreateSession ((req.context.bind (·.sessionId)).getD (defaultSessionId agent.id))
          agent.id (principal.map (·.id)) s₂ = (.ok session, finish) ∧
        caller = ⟨agent, principal, chain,
          (req.context.bind (·.sessionId)).getD (defaultSessionId agent.id), session⟩ := by
  rw [resolveCaller]
  simp only [Action.bind_ok_iff]
  constructor
  · rintro ⟨_, s₀, hauth, agent, s₁, hagent, ⟨principal, chain⟩, s₂, hprincipal, session, s₃,
      hsession, hpure⟩
    obtain ⟨howner, rfl⟩ := authenticatedAs_eq_ok.mp hauth
    cases hpure
    exact ⟨howner, agent, s₁, principal, chain, s₂, session, hagent, hprincipal, hsession, rfl⟩
  · rintro ⟨hauth, agent, s₁, principal, chain, s₂, session, hagent, hprincipal, hsession, rfl⟩
    exact ⟨(), s, authenticatedAs_eq_ok.mpr ⟨hauth, rfl⟩, agent, s₁, hagent, (principal, chain), s₂,
      hprincipal, session, finish, hsession, rfl⟩

theorem resolveCaller_resolved {auth : Option Uuid} {req : AccessRequest} {caller : Caller}
    (run : resolveCaller p auth req s = (.ok caller, finish)) :
    CallerResolved p auth req s caller := by
  obtain ⟨hauth, agent, s₁, principal, chain, s₂, session, hagent, -, -, rfl⟩ :=
    resolveCaller_eq_ok.mp run
  have hid := getAgent_id hagent
  exact ⟨hauth, hid, by rw [hid]⟩

/-! ## Requesting access -/

/-- The answers of a call whose session or agent has been stopped. -/
def sessionKilledResponse : AccessResponse :=
  .deny "Agent session has been killed by emergency stop"

def agentKilledResponse : AccessResponse := .deny "Agent has been killed by emergency stop"

/-- A decided call: its caller is not stopped, the policy has been evaluated, the
decision carried out and recorded. -/
structure AccessDecided (p : Platform) (auth : Option Uuid) (req : AccessRequest) (s : Serving)
    (caller : Caller) (s₁ : Serving) (eval : PolicyEvaluation) (s₂ : Serving)
    (response : AccessResponse) (s₃ finish : Serving) : Prop where
  resolved : resolveCaller p auth req s = (.ok caller, s₁)
  sessionAlive : caller.session.killed = false
  agentAlive : caller.agent.id ∉ s₁.app.sessionStore.killedAgents
  evaluated : evalEngine (caller.context req) s₁ = (.ok eval, s₂)
  enacted : enactDecision p caller req eval s₂ = (.ok response, s₃)
  recorded : recordDecision p caller req eval response s₃ = (.ok (), finish)

/-- Every answer of `request_access` is a denial of a stopped caller or a decision. -/
theorem requestAccess_eq_ok {auth : Option Uuid} {req : AccessRequest} {response : AccessResponse} :
    requestAccess p auth req s = (.ok response, finish) ↔
      (∃ caller, resolveCaller p auth req s = (.ok caller, finish) ∧
        caller.session.killed = true ∧ response = sessionKilledResponse) ∨
      (∃ caller, resolveCaller p auth req s = (.ok caller, finish) ∧
        caller.session.killed = false ∧
        caller.agent.id ∈ finish.app.sessionStore.killedAgents ∧ response = agentKilledResponse) ∨
      ∃ caller s₁ eval s₂ s₃, AccessDecided p auth req s caller s₁ eval s₂ response s₃ finish := by
  rw [requestAccess]
  rw [Action.bind_ok_iff]
  constructor
  · rintro ⟨caller, s₁, hcaller, run⟩
    split at run
    · rename_i hkilled
      cases run
      exact .inl ⟨caller, hcaller, hkilled, rfl⟩
    · rename_i hkilled
      have hkilled : caller.session.killed = false := by simpa using hkilled
      obtain ⟨stopped, s₁', hread, run⟩ := Action.bind_ok_iff.mp run
      cases hread
      split at run
      · rename_i hstopped
        cases run
        exact .inr (.inl ⟨caller, hcaller, hkilled,
          by simpa [SessionStore.isAgentKilled] using hstopped, rfl⟩)
      · rename_i hstopped
        obtain ⟨eval, s₂, heval, run⟩ := Action.bind_ok_iff.mp run
        obtain ⟨response', s₃, henact, run⟩ := Action.bind_ok_iff.mp run
        obtain ⟨_, s₄, hrecord, run⟩ := Action.bind_ok_iff.mp run
        cases run
        exact .inr (.inr ⟨caller, s₁, eval, s₂, s₃, hcaller, hkilled,
          by simpa [SessionStore.isAgentKilled] using hstopped, heval, henact, hrecord⟩)
  · rintro (⟨caller, hcaller, hkilled, rfl⟩ | ⟨caller, hcaller, hkilled, hstopped, rfl⟩ |
      ⟨caller, s₁, eval, s₂, s₃, h⟩)
    · exact ⟨caller, finish, hcaller, by rw [if_pos hkilled]; rfl⟩
    · refine ⟨caller, finish, hcaller, ?_⟩
      rw [if_neg (by simp [hkilled])]
      refine Action.bind_ok_iff.mpr ⟨_, finish, rfl, ?_⟩
      rw [if_pos (by simpa [SessionStore.isAgentKilled] using hstopped)]
      rfl
    · refine ⟨caller, s₁, h.resolved, ?_⟩
      rw [if_neg (by simp [h.sessionAlive])]
      refine Action.bind_ok_iff.mpr ⟨_, s₁, rfl, ?_⟩
      rw [if_neg (by simpa [SessionStore.isAgentKilled] using h.agentAlive)]
      refine Action.bind_ok_iff.mpr ⟨eval, s₂, h.evaluated, ?_⟩
      refine Action.bind_ok_iff.mpr ⟨response, s₃, h.enacted, ?_⟩
      exact Action.bind_ok_iff.mpr ⟨(), finish, h.recorded, rfl⟩

/-- Every answer is given to a resolved caller. -/
theorem requestAccess_resolved {auth : Option Uuid} {req : AccessRequest}
    {response : AccessResponse} (run : requestAccess p auth req s = (.ok response, finish)) :
    ∃ caller s₁, resolveCaller p auth req s = (.ok caller, s₁) := by
  obtain ⟨caller, s₁, hresolve, -⟩ := Action.bind_ok_iff.mp run
  exact ⟨caller, s₁, hresolve⟩

/-- What a successful `grantAccess` has signed, recorded and answered. -/
structure AccessGranted (p : Platform) (caller : Caller) (req : AccessRequest)
    (eval : PolicyEvaluation) (s : Serving) (minted : Minted) (expiresAt : Instant)
    (row : TokenRow) (response : AccessResponse) (finish : Serving) : Prop where
  signed : sign p (.requestAccess caller.agent.id) (caller.tokenParams p req eval)
    (s.tape.now s.tick) (s.tape.uuid (s.tick + 1)) (s.tape.now (s.tick + 2)) = .ok minted
  stored : AccessRow caller req eval minted row
  response_eq : response = { AccessResponse.ofEvaluation eval with
    token := some ⟨minted.token, expiresAt, eval.approvedScopes, minted.claims.jti⟩ }
  app : finish.app = { s.app with db := { s.app.db with tokens := s.app.db.tokens ++ [row] } }
  ledger : finish.ledger = s.ledger ++ [minted]

/-- The recorded and the answered expiry are counted from a reading after the signature. -/
theorem grantAccess_expires {caller : Caller} {req : AccessRequest} {eval : PolicyEvaluation}
    {response : AccessResponse} (run : grantAccess p caller req eval s = (.ok response, finish)) :
    ∃ minted expiresAt row, AccessGranted p caller req eval s minted expiresAt row response finish ∧
      (caller.tokenParams p req eval).expiry (s.tape.now (s.tick + 3)) = some expiresAt ∧
      row.expiresAt = p.toRfc3339 expiresAt := by
  obtain ⟨result, s₁, hissue, run⟩ := Action.bind_ok_iff.mp run
  obtain ⟨minted, hsign, rfl, rfl⟩ := issue_eq_ok.mp hissue
  obtain ⟨now, s₂, hnow, run⟩ := Action.bind_ok_iff.mp run
  cases hnow
  obtain ⟨expiresAt, s₃, hexpiry, run⟩ := Action.bind_ok_iff.mp run
  obtain ⟨hexpires, rfl⟩ := orPanic_eq_ok hexpiry
  obtain ⟨_, s₄, hrecord, run⟩ := Action.bind_ok_iff.mp run
  obtain ⟨row, hrow, htext, rfl⟩ := Database.recordToken_row hrecord
  cases run
  exact ⟨minted, expiresAt, row, ⟨hsign, hrow, rfl, rfl, rfl⟩, hexpires, htext⟩

theorem grantAccess_granted {caller : Caller} {req : AccessRequest} {eval : PolicyEvaluation}
    {response : AccessResponse} (run : grantAccess p caller req eval s = (.ok response, finish)) :
    ∃ minted expiresAt row,
      AccessGranted p caller req eval s minted expiresAt row response finish := by
  obtain ⟨minted, expiresAt, row, hgranted, -, -⟩ := grantAccess_expires run
  exact ⟨minted, expiresAt, row, hgranted⟩

/-- Only the approval id and the token are filled in after the evaluation. -/
theorem enactDecision_decision {caller : Caller} {req : AccessRequest} {eval : PolicyEvaluation}
    {response : AccessResponse} (run : enactDecision p caller req eval s = (.ok response, finish)) :
    response.decision = eval.decision.name := by
  cases hdecision : eval.decision with
  | allow =>
      rw [enactDecision, hdecision] at run
      obtain ⟨minted, expiresAt, row, h⟩ := grantAccess_granted run
      rw [h.response_eq, ← hdecision]
      rfl
  | requireApproval approver reason =>
      rw [enactDecision, hdecision] at run
      obtain ⟨resourceId, s₁, -, run⟩ := Action.bind_ok_iff.mp run
      obtain ⟨approval, s₂, -, run⟩ := Action.bind_ok_iff.mp run
      rw [← (Except.ok.inj (Prod.mk.inj run).1), ← hdecision]
      rfl
  | deny =>
      rw [enactDecision, hdecision] at run
      rw [← (Except.ok.inj (Prod.mk.inj run).1), ← hdecision]
      rfl

theorem enactDecision_approvedScopes {caller : Caller} {req : AccessRequest}
    {eval : PolicyEvaluation} {response : AccessResponse}
    (run : enactDecision p caller req eval s = (.ok response, finish)) :
    response.approvedScopes = eval.approvedScopes := by
  rw [enactDecision] at run
  cases hdecision : eval.decision with
  | allow =>
      rw [hdecision] at run
      obtain ⟨minted, expiresAt, row, h⟩ := grantAccess_granted run
      rw [h.response_eq]
      rfl
  | requireApproval approver reason =>
      rw [hdecision] at run
      obtain ⟨resourceId, s₁, -, run⟩ := Action.bind_ok_iff.mp run
      obtain ⟨approval, s₂, -, run⟩ := Action.bind_ok_iff.mp run
      cases run
      rfl
  | deny =>
      rw [hdecision] at run
      cases run
      rfl

/-! ## The dry run -/

/-- The context in which a dry run is evaluated. -/
def AccessRequest.rehearsal (req : AccessRequest) (agent : Agent) (principal : Option Principal) :
    PolicyContext :=
  ⟨agent, principal, req.action, req.resource, req.requestedScopes,
    req.context.bind (·.sessionId), []⟩

/-- Every answer of `check_access` is a denial of a stopped agent or a decision, which is
evaluated over the state in which the call arrived. -/
theorem checkAccess_ok {auth : Option Uuid} {req : AccessRequest} {response : CheckResponse}
    (run : checkAccess p auth req s = (.ok response, finish)) :
    auth = some req.agentId ∧ ∃ agent s₁, Database.getAgent p req.agentId s = (.ok agent, s₁) ∧
      ((req.agentId ∈ s.app.sessionStore.killedAgents ∧
        response = ⟨false, "deny", [], "Agent has been killed by emergency stop"⟩) ∨
      (req.agentId ∉ s.app.sessionStore.killedAgents ∧ ∃ principal s₂ eval s₃,
        ownerPrincipal p agent s₁ = (.ok principal, s₂) ∧ s₂.app = s.app ∧ s₂.tape = s.tape ∧
        evalEngine (req.rehearsal agent principal) s₂ = (.ok eval, s₃) ∧
        response = ⟨eval.decision == .allow, eval.decision.name, eval.approvedScopes,
          eval.reason⟩)) := by
  obtain ⟨_, s₀, hauth, run⟩ := Action.bind_ok_iff.mp run
  obtain ⟨howner, rfl⟩ := authenticatedAs_eq_ok.mp hauth
  obtain ⟨agent, s₁, hagent, run⟩ := Action.bind_ok_iff.mp run
  obtain ⟨principal, s₂, hprincipal, run⟩ := Action.bind_ok_iff.mp run
  obtain ⟨stopped, s₂', hread, run⟩ := Action.bind_ok_iff.mp run
  cases hread
  have hstill : s₂.still = s.still := ((keeps_ownerPrincipal tickFree_still agent).eq
    hprincipal).trans ((Database.keeps_getAgent tickFree_still _).eq hagent)
  have happ : s₂.app = s.app := congrArg Prod.fst hstill
  have htape : s₂.tape = s.tape := congrArg (·.2.2) hstill
  rw [getAgent_id hagent] at run
  refine ⟨howner, agent, s₁, hagent, ?_⟩
  split at run
  · rename_i hstopped
    cases run
    refine .inl ⟨?_, rfl⟩
    rw [← happ]
    simpa [SessionStore.isAgentKilled] using hstopped
  · rename_i hstopped
    obtain ⟨eval, s₃, heval, run⟩ := Action.bind_ok_iff.mp run
    obtain ⟨_, s₄, -, run⟩ := Action.bind_ok_iff.mp run
    cases run
    refine .inr ⟨?_, principal, s₂, eval, s₃, hprincipal, happ, htape, heval, rfl⟩
    rw [← happ]
    simpa [SessionStore.isAgentKilled] using hstopped

end

end Patroclus
