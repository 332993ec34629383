import Patroclus.Api.Caller
import Patroclus.Db.Completion

/-!
# Logging every decision

Four endpoints decide: `request_access`, its dry run, and the two that delegate.
A log is complete when each success is one row that names the decision, and an
error is none. The first two endpoints answer a stopped caller before they reach
the log, and `principal_delegate` never writes to it. A run without database
failures is logged exactly when it meets neither.
-/

namespace Patroclus

open Foundation

/-- What a row of the audit log must say about a decision. -/
structure LogLine where
  agentId : Uuid
  action : String
  resource : String
  decision : String
  tokenJti : Option String

structure LogLine.Names (line : LogLine) (row : AuditRow) : Prop where
  agentId : row.agentId = line.agentId.toString
  action : row.action = line.action
  resource : row.resource = line.resource
  decision : row.decision = line.decision
  tokenJti : row.tokenJti = line.tokenJti

/-- The agent acted on, the action, the resource and the decision of a successful call,
and the id of the token that it returned. -/
def Call.logLine (p : Platform) : Call → Reply → Option LogLine
  | .requestAccess _ req, .access response =>
      some ⟨req.agentId, req.action, req.resource, response.decision,
        response.token.bind fun info => (p.jwt.payload info.jwt).map (·.jti)⟩
  | .check _ req, .check response =>
      some ⟨req.agentId, req.action, req.resource, response.decision, none⟩
  | .delegate _ req, .delegation response =>
      some ⟨req.subAgentId, "delegate", agentAudience req.subAgentId, "allow",
        (p.jwt.payload response.delegatedToken).map (·.jti)⟩
  | .principalDelegate req, .grant response =>
      some ⟨req.agentId, "delegate", agentAudience req.agentId, "allow",
        (p.jwt.payload response.delegationToken).map (·.jti)⟩
  | _, _ => none

def Call.decides : Call → Bool
  | .requestAccess _ _ | .check _ _ | .delegate _ _ | .principalDelegate _ => true
  | _ => false

/-- A success adds one row, which names what was decided; an error adds none. -/
def Logged {α : Type} (line : α → Option LogLine) (before : List AuditRow) :
    Except Failure α → List AuditRow → Prop
  | .ok a, after => ∃ decided row, line a = some decided ∧ decided.Names row ∧
      after = before ++ [row]
  | .error _, after => after = before

/-- The call is logged as its answer says. -/
def World.Logs (p : Platform) (w : World) (input : Input) : Prop :=
  match input.event with
  | .call call => Logged (call.logLine p) w.app.db.auditLog (w.reply p call input.tape)
      (w.step p input).app.db.auditLog
  | .restart => True

def Serving.auditLog (s : Serving) : List AuditRow := s.app.db.auditLog

theorem tickFree_auditLog : TickFree Serving.auditLog := fun _ => rfl

theorem ignoresSessions_auditLog : IgnoresSessions Serving.auditLog := fun _ _ _ => rfl

section

variable {p : Platform} {s : Serving} {auth : Option Uuid}

/-- A handler that ends by entering its decision is logged. -/
theorem createAuditEntry_logged {α : Type} {entry : CreateAuditEntry} (line : α → Option LogLine)
    {a : α} {decided : LogLine} (hline : line a = some decided)
    (names : ∀ row, Database.Enters entry row → decided.Names row) (s : Serving) :
    Action.WP (Database.createAuditEntry p entry >>= fun _ => pure a) (fun outcome finish =>
      Logged line s.auditLog outcome finish.auditLog) s := by
  obtain ⟨audit, row, hrow, hrun⟩ := Database.createAuditEntry_eq (p := p) entry s
  cases hfault : s.tape.fault (s.tick + 2) with
  | some message =>
      rw [hfault] at hrun
      rw [Action.WP, Action.bind_run_error hrun]
      rfl
  | none =>
      rw [hfault] at hrun
      rw [Action.WP, Action.bind_run_ok hrun]
      exact ⟨decided, row, hline, names row hrow, rfl⟩

/-- What follows on the entry only wraps up the answer. -/
theorem logged_then_pure {α β : Type} {act : Handler α} {decided : LogLine}
    {before : List AuditRow} (line : β → Option LogLine) {b : β} (hline : line b = some decided)
    (h : Action.WP act (fun outcome finish =>
      Logged (fun _ => some decided) before outcome finish.auditLog) s) :
    Action.WP (act >>= fun _ => pure b) (fun outcome finish =>
      Logged line before outcome finish.auditLog) s := by
  refine Action.WP.bind_of (fun _ finish hrun => ?_) fun e finish hrun => ?_
  · rw [Action.WP, hrun] at h
    obtain ⟨_, row, hdecided, hnames, hlog⟩ := h
    cases hdecided
    exact ⟨decided, row, hline, hnames, hlog⟩
  · rw [Action.WP, hrun] at h
    exact h

/-! ## Requesting access -/

theorem ignoresGrants_auditLog : IgnoresGrants Serving.auditLog :=
  ⟨fun _ => rfl, fun _ _ => rfl, fun _ _ => rfl, fun _ _ => rfl⟩

/-- The token of an answer carries the id that is recorded for it. -/
theorem enactDecision_jti {caller : Caller} {req : AccessRequest} {eval : PolicyEvaluation}
    {response : AccessResponse} {finish : Serving}
    (run : enactDecision p caller req eval s = (.ok response, finish)) :
    (response.token.bind fun info => (p.jwt.payload info.jwt).map (·.jti)) =
      response.token.map (·.jti) := by
  cases htoken : response.token with
  | none => rfl
  | some info =>
      have hallow := enactDecision_token run (by rw [htoken]; nofun)
      rw [enactDecision, hallow] at run
      obtain ⟨minted, expiresAt, row, hgranted⟩ := grantAccess_granted run
      rw [hgranted.response_eq] at htoken
      cases htoken
      simp [(sign_signed hgranted.signed).payload]

def accessLine (p : Platform) (req : AccessRequest) (response : AccessResponse) : LogLine :=
  ⟨req.agentId, req.action, req.resource, response.decision,
    response.token.bind fun info => (p.jwt.payload info.jwt).map (·.jti)⟩

theorem recordDecision_logged {caller : Caller} {req : AccessRequest} {eval : PolicyEvaluation}
    {response : AccessResponse} (agent : caller.agent.id = req.agentId)
    (decision : response.decision = eval.decision.name)
    (jti : (accessLine p req response).tokenJti = response.token.map (·.jti)) (s : Serving) :
    Action.WP (recordDecision p caller req eval response) (fun outcome finish =>
      Logged (fun _ => some (accessLine p req response)) s.auditLog outcome finish.auditLog) s := by
  refine Action.WP.bind_of (fun timestamp s₁ h => ?_) fun e finish h => by cases h
  cases h
  refine Action.WP.bind_of (fun now s₂ h => ?_) fun e finish h => by cases h
  cases h
  refine Action.WP.bind_of (fun _ s₃ h => ?_) fun e finish h => by cases h
  cases h
  refine createAuditEntry_logged (fun _ => some (accessLine p req response)) rfl
    (fun row hrow => ?_) _
  exact ⟨by rw [hrow.agentId, agent]; rfl, hrow.action, hrow.resource,
    hrow.decision.trans decision.symm, hrow.tokenJti.trans jti.symm⟩

/-- A caller that nobody has stopped gets no answer that is not logged. -/
theorem requestAccess_logged {req : AccessRequest} (alive : Resolves p auth req s →
      (s.app.sessionStore.sessionFor req).killed = false ∧
      req.agentId ∉ s.app.sessionStore.killedAgents) :
    Action.WP (requestAccess p auth req) (fun outcome finish =>
      Logged (fun response => some (accessLine p req response)) s.auditLog outcome
        finish.auditLog) s := by
  have resolve := keeps_resolveCaller (p := p) tickFree_auditLog ignoresSessions_auditLog auth req
  refine Action.WP.bind_of (fun caller s₁ hcaller => ?_) fun e finish herror =>
    resolve.eq herror
  have hlog₁ := resolve.eq hcaller
  have hfound := resolveCaller_found hcaller
  obtain ⟨hsession, hagent⟩ := alive (resolves_of_run hcaller)
  rw [if_neg (by rw [hfound.killed_eq, hsession]; simp)]
  refine Action.WP.bind_of (fun stopped s₁' hread => ?_) fun e finish herror => by cases herror
  cases hread
  rw [if_neg (by simpa [SessionStore.isAgentKilled, hfound.agentId, hfound.killedAgents])]
  have evaluate := keeps_evalEngine tickFree_auditLog ignoresSessions_auditLog (caller.context req)
  refine Action.WP.bind_of (fun eval s₂ heval => ?_) fun e finish herror => by cases herror
  have hlog₂ := (evaluate.eq heval).trans hlog₁
  have enact := keeps_enactDecision (p := p) ignoresGrants_auditLog caller req eval
  refine Action.WP.bind_of (fun response s₃ henact => ?_) fun e finish herror =>
    (enact.eq herror).trans hlog₂
  have hlog₃ := (enact.eq henact).trans hlog₂
  have hrecord := recordDecision_logged (p := p) hfound.agentId (enactDecision_decision henact)
    (enactDecision_jti henact) s₃
  rw [hlog₃] at hrecord
  exact logged_then_pure (fun response => some (accessLine p req response)) rfl hrecord

/-- A stopped caller is answered, and the answer is not logged. -/
theorem requestAccess_unlogged {req : AccessRequest} (resolves : Resolves p auth req s)
    (faults : ∀ n, s.tape.fault n = none)
    (stopped : (s.app.sessionStore.sessionFor req).killed = true ∨
      req.agentId ∈ s.app.sessionStore.killedAgents) :
    (requestAccess p auth req).Returns (fun _ finish => finish.auditLog = s.auditLog) s := by
  obtain ⟨caller, s₁, hcaller, hfound⟩ := resolves.returns faults
  have hlog : s₁.auditLog = s.auditLog :=
    (keeps_resolveCaller tickFree_auditLog ignoresSessions_auditLog auth req).eq hcaller
  rw [← hfound.killed_eq] at stopped
  cases hsession : caller.session.killed with
  | true =>
      exact .of_run (requestAccess_eq_ok.mpr (.inl ⟨caller, hcaller, hsession, rfl⟩)) hlog
  | false =>
      have hagent : caller.agent.id ∈ s₁.app.sessionStore.killedAgents := by
        rw [hfound.agentId, hfound.killedAgents]
        simpa [hsession] using stopped
      exact .of_run (requestAccess_eq_ok.mpr (.inr (.inl ⟨caller, hcaller, hsession, hagent,
        rfl⟩))) hlog

/-! ## The dry run -/

def checkLine (req : AccessRequest) (response : CheckResponse) : LogLine :=
  ⟨req.agentId, req.action, req.resource, response.decision, none⟩

theorem checkAccess_logged {req : AccessRequest} (alive : auth = some req.agentId →
      s.app.db.agents.any (·.id == req.agentId) = true →
      req.agentId ∉ s.app.sessionStore.killedAgents) :
    Action.WP (checkAccess p auth req) (fun outcome finish =>
      Logged (fun response => some (checkLine req response)) s.auditLog outcome
        finish.auditLog) s := by
  refine Action.WP.bind_of (fun _ s₀ hrun => ?_) fun e finish herror =>
    (keeps_authenticatedAs auth _).eq herror
  obtain ⟨hauth, rfl⟩ := authenticatedAs_eq_ok.mp hrun
  refine Action.WP.bind_of (fun agent s₁ hagent => ?_) fun e finish herror =>
    (Database.keeps_getAgent tickFree_auditLog _).eq herror
  have hid := getAgent_id hagent
  obtain ⟨-, row, hrow, -, rfl⟩ := getAgent_eq_ok.mp hagent
  have halive := alive hauth (registered_of_find? hrow)
  refine Action.WP.bind_of (fun principal s₂ hprincipal => ?_) fun e finish herror => by
    have hlog := (keeps_ownerPrincipal tickFree_auditLog agent).eq herror
    exact hlog
  have hstill := (keeps_ownerPrincipal tickFree_still agent).eq hprincipal
  have happ : s₂.app = s.app := congrArg Prod.fst hstill
  refine Action.WP.bind_of (fun stopped s₂' hread => ?_) fun e finish herror => by cases herror
  cases hread
  rw [if_neg (by simpa [SessionStore.isAgentKilled, hid, happ])]
  refine Action.WP.bind_of (fun eval s₃ heval => ?_) fun e finish herror => by cases herror
  have hlog : s₃.auditLog = s.auditLog := by
    obtain ⟨-, rfl⟩ := evalEngine_eq_ok.mp heval
    show s₂.app.db.auditLog = s.app.db.auditLog
    rw [happ]
  rw [← hlog]
  refine createAuditEntry_logged (fun response => some (checkLine req response)) rfl
    (fun row hrow => ?_) _
  exact ⟨by rw [hrow.agentId, hid]; rfl, hrow.action, hrow.resource, hrow.decision, hrow.tokenJti⟩

/-- A stopped agent is answered, and the answer is not logged. -/
theorem checkAccess_unlogged {req : AccessRequest} (authenticated : auth = some req.agentId)
    (registered : s.app.db.agents.any (·.id == req.agentId) = true)
    (faults : ∀ n, s.tape.fault n = none)
    (stopped : req.agentId ∈ s.app.sessionStore.killedAgents) :
    (checkAccess p auth req).Returns (fun _ finish => finish.auditLog = s.auditLog) s := by
  obtain ⟨row, hrow⟩ := find?_of_registered registered
  have hagent := (getAgent_eq_ok (p := p)).mpr ⟨faults s.tick, row, hrow, rfl, rfl⟩
  have hid := getAgent_id hagent
  refine .bind_run (authenticatedAs_eq_ok.mpr ⟨authenticated, rfl⟩) (.bind_run hagent ?_)
  refine .bind (ownerPrincipal_returns _ _) ?_
  intro principal s₂ hstill
  have happ : s₂.app = s.app := congrArg Prod.fst hstill
  refine .bind_run rfl ?_
  rw [if_pos (by simpa [SessionStore.isAgentKilled, hid, happ])]
  refine .pure ?_
  show s₂.app.db.auditLog = s.app.db.auditLog
  rw [happ]

/-! ## Delegating -/

def delegateLine (p : Platform) (req : DelegateRequest) (response : DelegateResponse) : LogLine :=
  ⟨req.subAgentId, "delegate", agentAudience req.subAgentId, "allow",
    (p.jwt.payload response.delegatedToken).map (·.jti)⟩

theorem recordDelegation_logged {claims : AgentClaims} {req : DelegateRequest} {minted : Minted}
    {expiresAt : Instant} {response : DelegateResponse}
    (signed : p.jwt.payload minted.token = some minted.claims)
    (token : response.delegatedToken = minted.token) (s : Serving) :
    Action.WP (recordDelegation p claims req minted.claims.jti expiresAt) (fun outcome finish =>
      Logged (fun _ => some (delegateLine p req response)) s.auditLog outcome
        finish.auditLog) s := by
  have hrecord : (Database.recordToken p minted.claims.jti none req.subAgentId req.scopes
      (agentAudience req.subAgentId) expiresAt).Keeps Serving.auditLog :=
    Database.keeps_recordToken tickFree_auditLog fun _ _ => rfl
  refine Action.WP.bind_of (fun _ s₁ hrun => ?_) fun e finish herror => hrecord.eq herror
  rw [← hrecord.eq hrun]
  refine createAuditEntry_logged (fun _ => some (delegateLine p req response)) rfl
    (fun row hrow => ?_) _
  refine ⟨hrow.agentId, hrow.action, hrow.resource, hrow.decision, hrow.tokenJti.trans ?_⟩
  rw [delegateLine, token, signed]
  rfl

theorem delegate_logged (req : DelegateRequest) (s : Serving) :
    Action.WP (delegate p auth req) (fun outcome finish =>
      Logged (fun response => some (delegateLine p req response)) s.auditLog outcome
        finish.auditLog) s := by
  refine Action.WP.bind_of (fun presenter s₀ hauth => ?_) fun e finish herror =>
    (keeps_authenticated auth).eq herror
  have hlog₀ : s₀.auditLog = s.auditLog := (keeps_authenticated auth).eq hauth
  refine Action.WP.bind_of (fun claims s₁ hadmit => ?_) fun e finish herror =>
    ((keeps_admitDelegation tickFree_auditLog presenter req).eq herror).trans hlog₀
  have hlog₁ := ((keeps_admitDelegation tickFree_auditLog presenter req).eq hadmit).trans hlog₀
  refine Action.WP.bind_of (fun expiry s₂ hexpiry => ?_) fun e finish herror =>
    ((keeps_delegationExpiry tickFree_auditLog claims _).eq herror).trans hlog₁
  have hlog₂ := ((keeps_delegationExpiry tickFree_auditLog claims _).eq hexpiry).trans hlog₁
  obtain ⟨effectiveExpiry, ttlSeconds⟩ := expiry
  have issued : (issue p (.delegate presenter req.parentGrantToken)
      (childParams p claims req ttlSeconds)).Keeps Serving.auditLog :=
    keeps_issue tickFree_auditLog fun _ _ => rfl
  refine Action.WP.bind_of (fun result s₃ hissue => ?_) fun e finish herror =>
    (issued.eq herror).trans hlog₂
  have hlog₃ := (issued.eq hissue).trans hlog₂
  obtain ⟨minted, hsign, rfl, -⟩ := issue_eq_ok.mp hissue
  rw [← hlog₃]
  exact logged_then_pure (fun response => some (delegateLine p req response)) rfl
    (recordDelegation_logged (sign_signed hsign).payload rfl s₃)

/-! ## Granting -/

/-- The conditions under which `principal_delegate` issues a grant: the agent and its
owner are on record, the dates are in range, the drawn ids are new, and the codec signs. -/
structure GrantIssues (p : Platform) (req : PrincipalDelegateRequest) (s : Serving)
    (row : AgentRow) (ownerId : Uuid) (owner : PrincipalRow) (minted : Minted) : Prop where
  agent : s.app.db.agents.find? (·.id == req.agentId) = some row
  owned : row.ownerId = some ownerId
  principal : s.app.db.principals.find? (·.id == ownerId) = some owner
  expiry : ((s.tape.now (s.tick + 5)).addSeconds (asI64 req.expiresInSeconds)).isSome
  freshGrant : s.app.db.grants.any (·.id == s.tape.uuid (s.tick + 6)) = false
  signed : sign p (.principalDelegate (s.tape.uuid (s.tick + 6)))
    (grantParams p (Database.principalOfRow p owner (s.tape.now (s.tick + 4)))
      (agentOfRow p row (s.tape.now (s.tick + 1)) (s.tape.now (s.tick + 2))) req)
    (s.tape.now (s.tick + 9)) (s.tape.uuid (s.tick + 10)) (s.tape.now (s.tick + 11)) = .ok minted
  freshToken : s.app.db.tokens.any (·.id == minted.claims.jti) = false

theorem GrantIssues.returns {req : PrincipalDelegateRequest} {row : AgentRow} {ownerId : Uuid}
    {owner : PrincipalRow} {minted : Minted} (h : GrantIssues p req s row ownerId owner minted)
    (faults : ∀ n, s.tape.fault n = none) :
    (principalDelegate p req).Returns (fun _ _ => True) s := by
  obtain ⟨expiresAt, hexpiry⟩ := Option.isSome_iff_exists.mp h.expiry
  have hid : row.id = req.agentId := by
    have hid := List.find?_some h.agent
    exact beq_iff_eq.mp hid
  have hagent : s.app.db.agents.any (·.id == row.id) = true := by
    rw [hid]
    exact registered_of_find? h.agent
  have hprincipal : s.app.db.principals.any (·.id == ownerId) = true := by
    have hfound := List.find?_some h.principal
    exact List.any_eq_true.mpr ⟨owner, List.mem_of_find?_eq_some h.principal, hfound⟩
  refine .bind_run (getAgent_eq_ok.mpr ⟨faults _, row, h.agent, rfl, rfl⟩) ?_
  have howner : (agentOfRow p row (s.tape.now (s.tick + 1)) (s.tape.now (s.tick + 2))).ownerId =
      some ownerId := h.owned
  rw [howner]
  refine .bind_run (Database.getPrincipal_eq_ok.mpr ⟨faults _, owner, h.principal, rfl, rfl⟩)
    (.bind_run utcNow_run ?_)
  have hpanic : orPanic ((s.tape.now (s.tick + 5)).addSeconds (asI64 req.expiresInSeconds)) =
      (pure expiresAt : Handler Instant) := by
    rw [hexpiry, orPanic_some]
  refine .bind_run (congrFun hpanic _) ?_
  refine .bind (Database.createGrant_returns faults h.freshGrant hagent hprincipal) ?_
  rintro _ s₁ ⟨rfl, grant, hgrant, rfl⟩
  refine .bind_run (issue_eq_ok.mpr ⟨minted, h.signed, rfl, rfl⟩) ?_
  refine .bind (Database.recordToken_returns faults h.freshToken hagent ?_) fun _ _ _ =>
    .pure trivial
  simp [hgrant]

theorem grantIssues_of_run {req : PrincipalDelegateRequest} {response : PrincipalDelegateResponse}
    {finish : Serving} (run : principalDelegate p req s = (.ok response, finish)) :
    ∃ row ownerId owner minted, GrantIssues p req s row ownerId owner minted := by
  obtain ⟨agent, s₁, hagent, run⟩ := Action.bind_ok_iff.mp run
  obtain ⟨-, row, hrow, rfl, rfl⟩ := getAgent_eq_ok.mp hagent
  cases howned : row.ownerId with
  | none =>
      have howner : (agentOfRow p row (s.tape.now (s.tick + 1))
        (s.tape.now (s.tick + 2))).ownerId = none := howned
      rw [howner] at run
      exact absurd run raise_ne_ok
  | some ownerId =>
      have howner : (agentOfRow p row (s.tape.now (s.tick + 1))
        (s.tape.now (s.tick + 2))).ownerId = some ownerId := howned
      rw [howner] at run
      obtain ⟨principal, s₂, hprincipal, run⟩ := Action.bind_ok_iff.mp run
      obtain ⟨-, owner, howner, rfl, rfl⟩ := Database.getPrincipal_eq_ok.mp hprincipal
      obtain ⟨now, s₃, hnow, run⟩ := Action.bind_ok_iff.mp run
      cases hnow
      obtain ⟨expiresAt, s₄, hpanic, run⟩ := Action.bind_ok_iff.mp run
      obtain ⟨hexpiry, rfl⟩ := orPanic_eq_ok hpanic
      obtain ⟨grantId, s₅, hgrant, run⟩ := Action.bind_ok_iff.mp run
      obtain ⟨rfl, hfresh, grant, rfl⟩ := Database.createGrant_ok hgrant
      obtain ⟨result, s₆, hissue, run⟩ := Action.bind_ok_iff.mp run
      obtain ⟨minted, hsigned, rfl, rfl⟩ := issue_eq_ok.mp hissue
      obtain ⟨_, s₇, hrecord, run⟩ := Action.bind_ok_iff.mp run
      have htoken := Database.recordToken_fresh hrecord
      exact ⟨row, ownerId, owner, minted, hrow, howned, howner,
        Option.isSome_iff_exists.mpr ⟨expiresAt, hexpiry⟩, hfresh, hsigned, htoken⟩

/-! ## Runs -/

/-- A call that finds its caller alive, and no grant that a principal is given. -/
def Serving.LogsCall (p : Platform) (s : Serving) : Call → Prop
  | .requestAccess auth req => Resolves p auth req s →
      (s.app.sessionStore.sessionFor req).killed = false ∧
      req.agentId ∉ s.app.sessionStore.killedAgents
  | .check auth req => auth = some req.agentId →
      s.app.db.agents.any (·.id == req.agentId) = true →
      req.agentId ∉ s.app.sessionStore.killedAgents
  | .principalDelegate req => ¬ ∃ row ownerId owner minted,
      GrantIssues p req s row ownerId owner minted
  | _ => True

/-- The input meets no answer that stays out of the log. -/
def World.MeetsLog (p : Platform) (w : World) (input : Input) : Prop :=
  match input.event with
  | .call call => w.up = true → (w.serving input.tape).LogsCall p call
  | .restart => True

/-- Wrapping up an answer changes nothing about how it is logged. -/
theorem logged_reply_iff {α : Type} {act : Handler α} {wrap : α → Reply}
    {line : α → Option LogLine} {decided : Reply → Option LogLine} {before : List AuditRow}
    (hline : ∀ a, decided (wrap a) = line a) :
    Action.WP (act >>= fun a => pure (wrap a)) (fun outcome finish =>
        Logged decided before outcome finish.auditLog) s ↔
      Action.WP act (fun outcome finish => Logged line before outcome finish.auditLog) s := by
  rcases hact : act s with ⟨outcome, finish⟩
  cases outcome with
  | ok a =>
      rw [Action.WP, Action.WP, Action.bind_run_ok hact, hact]
      simp only [Action.pure_run, Logged, hline]
  | error e =>
      rw [Action.WP, Action.WP, Action.bind_run_error hact, hact]
      exact Iff.rfl

/-- An answer that leaves the log as it was is not logged. -/
theorem not_logged {α : Type} {act : Handler α} {line : α → Option LogLine}
    (h : act.Returns (fun _ finish => finish.auditLog = s.auditLog) s) :
    ¬ Action.WP act (fun outcome finish =>
      Logged line s.auditLog outcome finish.auditLog) s := by
  intro hlogged
  obtain ⟨a, finish, hrun, hkept⟩ := h
  rw [Action.WP, hrun] at hlogged
  obtain ⟨_, row, -, -, hlog⟩ := hlogged
  have hlength := congrArg List.length (hkept.symm.trans hlog)
  simp at hlength

theorem serve_logged_iff {call : Call} (decides : call.decides = true)
    (faults : ∀ n, s.tape.fault n = none) :
    Action.WP (serve p call) (fun outcome finish =>
      Logged (call.logLine p) s.auditLog outcome finish.auditLog) s ↔ s.LogsCall p call := by
  cases call with
  | requestAccess auth req =>
      refine (logged_reply_iff fun response => rfl).trans ⟨fun hlogged resolves => ?_,
        requestAccess_logged⟩
      by_contra hstopped
      refine not_logged (requestAccess_unlogged resolves faults ?_) hlogged
      by_cases hsession : (s.app.sessionStore.sessionFor req).killed = true
      · exact .inl hsession
      · refine .inr (by_contra fun hagent => hstopped ⟨by simpa using hsession, hagent⟩)
  | check auth req =>
      refine (logged_reply_iff fun response => rfl).trans ⟨fun hlogged hauth registered => ?_,
        checkAccess_logged⟩
      intro hstopped
      exact not_logged (checkAccess_unlogged hauth registered faults hstopped) hlogged
  | delegate auth req =>
      exact (logged_reply_iff fun response => rfl).trans
        (iff_of_true (delegate_logged req s) trivial)
  | principalDelegate req =>
      have hkept := keeps_principalDelegate (p := p) ignoresGrants_auditLog req fun _ _ => rfl
      refine (logged_reply_iff fun response => rfl).trans ⟨fun hlogged => ?_, fun hissues => ?_⟩
      · rintro ⟨row, ownerId, owner, minted, hissues⟩
        obtain ⟨response, finish, hrun, -⟩ := hissues.returns faults
        exact not_logged (.of_run hrun (hkept.eq hrun)) hlogged
      · rcases hrun : principalDelegate p req s with ⟨outcome, finish⟩
        cases outcome with
        | ok response => exact absurd (grantIssues_of_run hrun) hissues
        | error e =>
            rw [Action.WP, hrun]
            exact hkept.eq hrun
  | _ => cases decides

theorem World.logs_iff {w : World} {input : Input} {call : Call}
    (event : input.event = .call call) (decides : call.decides = true)
    (faults : ∀ n, input.tape.fault n = none) : w.Logs p input ↔ w.MeetsLog p input := by
  unfold World.Logs World.MeetsLog World.reply World.step
  rw [event]
  cases hup : w.up with
  | false => simp [Logged]
  | true =>
      have hserve := serve_logged_iff (p := p) (s := w.serving input.tape) decides faults
      simp only [if_true, true_implies]
      exact hserve

/-- A success that leaves the log as it was is not logged. -/
theorem World.not_logs {w : World} {input : Input} {call : Call}
    (event : input.event = .call call) (ok : (w.reply p call input.tape).isOk = true)
    (kept : (w.step p input).app.db.auditLog = w.app.db.auditLog) : ¬ w.Logs p input := by
  intro h
  rw [World.Logs, event] at h
  dsimp only at h
  rw [kept] at h
  cases hreply : w.reply p call input.tape with
  | error e =>
      rw [hreply] at ok
      cases ok
  | ok reply =>
      rw [hreply] at h
      obtain ⟨_, row, -, -, hlog⟩ := h
      have hlength := congrArg List.length hlog
      simp at hlength

/-- In a run of these calls without database failures, every decision is logged exactly
if no call meets a stopped caller and no principal is given a grant. -/
theorem logs_along_iff {w : World} {inputs : List Input}
    (calls : ∀ input ∈ inputs, ∃ call, input.event = .call call ∧ call.decides = true)
    (faults : ∀ input ∈ inputs, ∀ n, input.tape.fault n = none) :
    Along (World.step p) (World.Logs p) w inputs ↔
      Along (World.step p) (World.MeetsLog p) w inputs := by
  apply Along.congr
  intro input hinput w
  obtain ⟨call, hevent, hdecides⟩ := calls input hinput
  exact World.logs_iff hevent hdecides (faults input hinput)

end

/-- A request that is allowed, and a dry run of it by the same agent. -/
def reading : Input := .steady (.call (.requestAccess (some ⟨300⟩) readDatabase)) opening 500

def dryRunning : Input := .steady (.call (.check (some ⟨300⟩) readDatabase)) opening 600

def openWorld : World := ruledWorld [.plain "allow" "test"]

/-- Neither meets a stopped caller, and the first gets a token. -/
theorem logs_along_dryRunning :
    (openWorld.step readPlatform reading).ledger.length = 1 ∧
      Along (World.step readPlatform) (World.Logs readPlatform) openWorld
        [reading, dryRunning] := by
  have hcalls : ∀ input ∈ [reading, dryRunning],
      ∃ call, input.event = .call call ∧ call.decides = true := by
    intro input hinput
    simp only [List.mem_cons, List.not_mem_nil, or_false] at hinput
    rcases hinput with rfl | rfl <;> exact ⟨_, rfl, rfl⟩
  have hfaults : ∀ input ∈ [reading, dryRunning], ∀ n, input.tape.fault n = none := by
    intro input hinput n
    simp only [List.mem_cons, List.not_mem_nil, or_false] at hinput
    rcases hinput with rfl | rfl <;> rfl
  refine ⟨by decide +kernel, (logs_along_iff hcalls hfaults).mpr ⟨fun _ _ => ?_, fun _ _ _ => ?_,
    trivial⟩⟩
  · exact ⟨rfl, by decide⟩
  · decide +kernel

/-- Complete logging as a promise about every run of these calls from a state. -/
def DecisionsLogged (p : Platform) (w : World) : Prop :=
  ∀ inputs : List Input,
    (∀ input ∈ inputs, ∃ call, input.event = .call call ∧ call.decides = true) →
    (∀ input ∈ inputs, ∀ n, input.tape.fault n = none) →
    Along (World.step p) (World.Logs p) w inputs

/-- A principal delegates to its agent, and the log stays empty. -/
theorem not_decisionsLogged : ¬ DecisionsLogged delegationPlatform enrolledWorld := by
  intro h
  have hcalls : ∀ input ∈ [granting], ∃ call, input.event = .call call ∧ call.decides = true := by
    intro input hinput
    rw [List.mem_singleton.mp hinput]
    exact ⟨_, rfl, rfl⟩
  have hfaults : ∀ input ∈ [granting], ∀ n, input.tape.fault n = none := by
    intro input hinput n
    rw [List.mem_singleton.mp hinput]
    rfl
  obtain ⟨hlogs, -⟩ := h [granting] hcalls hfaults
  exact World.not_logs rfl (by decide) (by decide) hlogs

end Patroclus
