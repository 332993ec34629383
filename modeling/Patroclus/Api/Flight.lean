import Patroclus.Api.Decision
import Patroclus.Foundation.Interleaving
import Patroclus.Foundation.Staged

/-!
# Handlers in flight

Nothing holds the handlers of the server apart but the locks of the session store and the
connection of the database, which are taken for one operation each. `Flight` says between
which of its operations an access request is, and `Flight.next` is the atomic step that
comes next; `KillStage` does the same for the emergency stop. A handler that nothing
interrupts is the handler as a whole.
-/

namespace Patroclus

open Foundation

/-- How far an access request has come. -/
inductive Flight where
  | arrived
  | found (agent : Agent) (principal : Option Principal)
      (presentedChain : Option (List DelegationHop))
  | admitted (caller : Caller)
  | alive (caller : Caller)
  | evaluated (caller : Caller) (eval : PolicyEvaluation)
  | minted (caller : Caller) (eval : PolicyEvaluation) (jwt jti : String) (expiresAt : Instant)
  | enacted (caller : Caller) (eval : PolicyEvaluation) (response : AccessResponse)
  | entered (caller : Caller) (eval : PolicyEvaluation) (response : AccessResponse)
  | answered (outcome : Except Failure AccessResponse)

namespace Flight

variable (p : Platform) (auth : Option Uuid) (req : AccessRequest)

/-- The next atomic step of a request. The reads up to `found` go together: no other
request and no emergency stop changes what they see. -/
def next : Flight → Handler Flight
  | .arrived => do
      authenticatedAs auth req.agentId
      let agent ← Database.getAgent p req.agentId
      let (principal, presentedChain) ← requestPrincipal p agent req
      return .found agent principal presentedChain
  | .found agent principal presentedChain => do
      let sessionId := (req.context.bind (·.sessionId)).getD (defaultSessionId agent.id)
      let session ← getOrCreateSession sessionId agent.id (principal.map (·.id))
      return .admitted ⟨agent, principal, presentedChain, sessionId, session⟩
  | .admitted caller => do
      if caller.session.killed then return .answered (.ok sessionKilledResponse)
      else if ← Action.read fun s => s.app.sessionStore.isAgentKilled caller.agent.id then
        return .answered (.ok agentKilledResponse)
      else return .alive caller
  | .alive caller => do return .evaluated caller (← evalEngine (caller.context req))
  | .evaluated caller eval =>
      match eval.decision with
      | .allow => do
          let params := caller.tokenParams p req eval
          let (jwt, jti) ← issue p (.requestAccess caller.agent.id) params
          let expiresAt ← orPanic (params.expiry (← utcNow))
          return .minted caller eval jwt jti expiresAt
      | .requireApproval _ _ => do
          return .enacted caller eval (← requestApproval p caller req eval)
      | .deny => return .enacted caller eval (AccessResponse.ofEvaluation eval)
  | .minted caller eval jwt jti expiresAt => do
      Database.recordToken p jti none caller.agent.id eval.approvedScopes req.resource expiresAt
      return .enacted caller eval { AccessResponse.ofEvaluation eval with
        token := some ⟨jwt, expiresAt, eval.approvedScopes, jti⟩ }
  | .enacted caller eval response => do
      let timestamp ← utcNow
      let now ← utcNow
      modifySessions (·.recordAction caller.sessionId
        ⟨req.action, req.resource, eval.decision, timestamp⟩ now)
      return .entered caller eval response
  | .entered caller eval response => do
      let _ ← Database.createAuditEntry p {
        agentId := caller.agent.id
        principalId := caller.principal.map (·.id)
        action := req.action
        resource := req.resource
        decision := eval.decision
        reason := eval.reason
        delegationChain := caller.presentedChain.map chainToJson
        tokenJti := response.token.map (·.jti)
        dryRun := false }
      return .answered (.ok response)
  | .answered outcome => return .answered outcome

/-- What a request answers at a stage; before the last one it does not answer. -/
def answer : Flight → Handler AccessResponse
  | .answered outcome => Action.lift outcome
  | _ => Action.fail .unreachable

/-- How many steps a request has to go. -/
def left : Flight → Nat
  | .arrived => 8
  | .found .. => 7
  | .admitted .. => 6
  | .alive .. => 5
  | .evaluated .. => 4
  | .minted .. => 3
  | .enacted .. => 2
  | .entered .. => 1
  | .answered .. => 0

variable {p auth req} {n : Nat}

/-- Every step brings a request closer to its answer. -/
theorem next_falls (flight : Flight) :
    (next p auth req flight).Yields fun flight' => left flight' ≤ left flight - 1 := by
  cases flight with
  | arrived => exact .bind fun _ => .bind fun _ => .bind fun _ => .pure (by simp [left])
  | found agent principal presentedChain => exact .bind fun _ => .pure (by simp [left])
  | admitted caller =>
      exact .ite (.pure (by simp [left]))
        (.bind fun _ => .ite (.pure (by simp [left])) (.pure (by simp [left])))
  | alive caller => exact .bind fun _ => .pure (by simp [left])
  | evaluated caller eval =>
      rw [next]
      cases eval.decision with
      | allow => exact .bind fun _ => .bind fun _ => .bind fun _ => .pure (by simp [left])
      | requireApproval approver reason => exact .bind fun _ => .pure (by simp [left])
      | deny => exact .pure (by simp [left])
  | minted caller eval jwt jti expiresAt => exact .bind fun _ => .pure (by simp [left])
  | enacted caller eval response =>
      refine .bind fun _ => ?_
      refine .bind fun _ => ?_
      refine .bind fun _ => ?_
      exact .pure (by simp [left])
  | entered caller eval response => exact .bind fun _ => .pure (by simp [left])
  | answered outcome => exact .pure (by simp [left])

variable (p auth req) in
/-- The stages of a request. -/
def stages : Staged Serving Failure Flight AccessResponse where
  next := next p auth req
  returned := .answered
  answer := answer
  left := left
  stays _ := rfl
  answers _ := rfl
  falls := next_falls
  last flight h := by
    cases flight with
    | answered outcome => exact ⟨outcome, rfl⟩
    | _ => cases h

theorem complete_succ (flight : Flight) : (stages p auth req).complete (n + 1) flight =
    next p auth req flight >>= (stages p auth req).complete n := rfl

theorem complete_answered (outcome : Except Failure AccessResponse) :
    (stages p auth req).complete n (.answered outcome) = Action.lift outcome :=
  Staged.complete_returned outcome

theorem complete_enacted (caller : Caller) (eval : PolicyEvaluation) (response : AccessResponse) :
    (stages p auth req).complete (n + 2) (.enacted caller eval response) = (do
      recordDecision p caller req eval response
      return response) := by
  rw [complete_succ, next, recordDecision]
  simp only [bind_assoc, pure_bind, complete_succ, next, complete_answered, Action.lift_ok]

theorem complete_evaluated (caller : Caller) (eval : PolicyEvaluation) :
    (stages p auth req).complete (n + 4) (.evaluated caller eval) = (do
      let response ← enactDecision p caller req eval
      recordDecision p caller req eval response
      return response) := by
  rw [complete_succ, next, enactDecision]
  cases eval.decision with
  | allow =>
      rw [grantAccess]
      simp only [bind_assoc, pure_bind, complete_succ (minted _ _ _ _ _), next, complete_enacted]
  | requireApproval approver reason => simp only [bind_assoc, pure_bind, complete_enacted]
  | deny => simp only [pure_bind, complete_enacted]

theorem complete_admitted (caller : Caller) :
    (stages p auth req).complete (n + 6) (.admitted caller) = (do
      if caller.session.killed then return sessionKilledResponse
      else if ← Action.read fun s => s.app.sessionStore.isAgentKilled caller.agent.id then
        return agentKilledResponse
      else
        let eval ← evalEngine (caller.context req)
        let response ← enactDecision p caller req eval
        recordDecision p caller req eval response
        return response) := by
  rw [complete_succ, next]
  split
  · rw [pure_bind, complete_answered, Action.lift_ok]
  · rw [bind_assoc]
    congr
    funext stopped
    split
    · rw [pure_bind, complete_answered, Action.lift_ok]
    · rw [pure_bind, complete_succ, next, bind_assoc]
      simp only [pure_bind, complete_evaluated]

/-- What a step of a request leaves alone: it writes to the session store, to the approval
requests and to the audit log, and from `minted` to the tokens. -/
theorem keeps_next {γ : Type*} {view : Serving → γ} {flight : Flight} (tick : TickFree view)
    (ledger : ∀ s minted, view (s.mint minted) = view s)
    (approvals : ∀ s rows, view (s.withDb { s.app.db with approvalRequests := rows }) = view s)
    (audit : ∀ s rows n, view (s.withDb { s.app.db with
      auditLog := rows, auditSequence := n }) = view s)
    (evaluation : (∃ caller, flight = .alive caller) → ∀ ctx, (evalEngine ctx).Keeps view)
    (opening : (∃ agent principal chain, flight = .found agent principal chain) →
      ∀ sessionId agentId principalId,
        (getOrCreateSession sessionId agentId principalId).Keeps view)
    (recording : (∃ caller eval jwt jti expiresAt, flight = .minted caller eval jwt jti expiresAt) →
      ∀ s rows, view (s.withDb { s.app.db with tokens := rows }) = view s)
    (entering : (∃ caller eval response, flight = .enacted caller eval response) →
      ∀ sessionId event now, (modifySessions (·.recordAction sessionId event now)).Keeps view) :
    (next p auth req flight).Keeps view := by
  cases flight with
  | arrived =>
      refine (keeps_authenticatedAs auth _).bind fun _ => ?_
      refine (Database.keeps_getAgent tick _).bind fun agent => ?_
      refine (keeps_requestPrincipal tick agent req).bind fun _ => ?_
      exact .pure _
  | found agent principal presentedChain =>
      exact (opening ⟨_, _, _, rfl⟩ _ _ _).bind fun _ => .pure _
  | admitted caller =>
      exact .ite (.pure _) ((Action.Keeps.read _).bind fun _ => .ite (.pure _) (.pure _))
  | alive caller => exact (evaluation ⟨_, rfl⟩ _).bind fun _ => .pure _
  | evaluated caller eval =>
      rw [next]
      cases eval.decision with
      | allow =>
          refine (keeps_issue tick ledger).bind fun _ => ?_
          refine (keeps_utcNow tick).bind fun _ => ?_
          refine (keeps_orPanic _).bind fun _ => ?_
          exact .pure _
      | requireApproval approver reason =>
          refine Action.Keeps.bind ?_ fun _ => .pure _
          refine (Database.keeps_findResourceByUri tick _).attempt.bind fun _ => ?_
          refine (Database.keeps_createApprovalRequest tick approvals).bind fun _ => ?_
          exact .pure _
      | deny => exact .pure _
  | minted caller eval jwt jti expiresAt =>
      exact (Database.keeps_recordToken tick (recording ⟨_, _, _, _, _, rfl⟩)).bind fun _ => .pure _
  | enacted caller eval response =>
      refine (keeps_utcNow tick).bind fun _ => ?_
      refine (keeps_utcNow tick).bind fun _ => ?_
      refine (entering ⟨_, _, _, rfl⟩ _ _ _).bind fun _ => ?_
      exact .pure _
  | entered caller eval response =>
      exact (Database.keeps_createAuditEntry tick audit).bind fun _ => .pure _
  | answered outcome => exact .pure _

/-- What a step of a request does: the stage that it leads to, and the session store that
it leaves. -/
inductive Moves (p : Platform) (req : AccessRequest) (app : AppState) :
    Flight → Flight → SessionStore → Prop
  | identifies {agent : Agent} {principal : Option Principal}
      {presentedChain : Option (List DelegationHop)} {row : AgentRow} {now now' : Instant}
      (registered : app.db.agents.find? (·.id == req.agentId) = some row)
      (read : agent = agentOfRow p row now now') :
      Moves p req app .arrived (.found agent principal presentedChain) app.sessionStore
  | opens {agent : Agent} {principal : Option Principal}
      {presentedChain : Option (List DelegationHop)} {sessionId : String} {now : Instant}
      (named : sessionId = (req.context.bind (·.sessionId)).getD (defaultSessionId agent.id)) :
      Moves p req app (.found agent principal presentedChain)
        (.admitted ⟨agent, principal, presentedChain, sessionId,
          (app.sessionStore.getOrCreateSession sessionId agent.id (principal.map (·.id)) now).1⟩)
        (app.sessionStore.getOrCreateSession sessionId agent.id (principal.map (·.id)) now).2
  | refuses {caller : Caller} {response : AccessResponse} (denies : response.decision = "deny") :
      Moves p req app (.admitted caller) (.answered (.ok response)) app.sessionStore
  | admits {caller : Caller} : Moves p req app (.admitted caller) (.alive caller) app.sessionStore
  | evaluates {caller : Caller} {now : Instant} :
      Moves p req app (.alive caller)
        (.evaluated caller (app.policyEngine.evaluate app.sessionStore now (caller.context req)).1)
        (app.policyEngine.evaluate app.sessionStore now (caller.context req)).2
  | signs {caller : Caller} {eval : PolicyEvaluation} {jwt jti : String} {expiresAt : Instant}
      (allowed : eval.decision = .allow) :
      Moves p req app (.evaluated caller eval) (.minted caller eval jwt jti expiresAt)
        app.sessionStore
  | withholds {caller : Caller} {eval : PolicyEvaluation} {response : AccessResponse}
      (refused : eval.decision ≠ .allow) (word : response.decision = eval.decision.name) :
      Moves p req app (.evaluated caller eval) (.enacted caller eval response) app.sessionStore
  | records {caller : Caller} {eval : PolicyEvaluation} {jwt jti : String} {expiresAt : Instant}
      {response : AccessResponse} (word : response.decision = eval.decision.name) :
      Moves p req app (.minted caller eval jwt jti expiresAt) (.enacted caller eval response)
        app.sessionStore
  | enters {caller : Caller} {eval : PolicyEvaluation} {response : AccessResponse}
      {event : TrajectoryEvent} {now : Instant} :
      Moves p req app (.enacted caller eval response) (.entered caller eval response)
        (app.sessionStore.recordAction caller.sessionId event now)
  | answers {caller : Caller} {eval : PolicyEvaluation} {response : AccessResponse} :
      Moves p req app (.entered caller eval response) (.answered (.ok response)) app.sessionStore
  | rests {outcome : Except Failure AccessResponse} :
      Moves p req app (.answered outcome) (.answered outcome) app.sessionStore
  | fails {flight : Flight} {e : Failure} :
      Moves p req app flight (.answered (.error e)) app.sessionStore

/-- Most steps leave the session store alone. -/
theorem keeps_sessionStore_next {flight : Flight}
    (opening : ∀ agent principal chain, flight ≠ .found agent principal chain)
    (evaluation : ∀ caller, flight ≠ .alive caller)
    (entering : ∀ caller eval response, flight ≠ .enacted caller eval response) :
    (next p auth req flight).Keeps fun s => s.app.sessionStore := by
  apply keeps_next
  · exact fun _ => rfl
  · exact fun _ _ => rfl
  · exact fun _ _ => rfl
  · exact fun _ _ _ => rfl
  · rintro ⟨caller, h⟩
    exact absurd h (evaluation caller)
  · rintro ⟨agent, principal, chain, h⟩
    exact absurd h (opening agent principal chain)
  · exact fun _ _ _ => rfl
  · rintro ⟨caller, eval, response, h⟩
    exact absurd h (entering caller eval response)

theorem next_moves {flight flight' : Flight} {s s' : Serving}
    (run : next p auth req flight s = (.ok flight', s')) :
    Moves p req s.app flight flight' s'.app.sessionStore := by
  have hstore (opening : ∀ agent principal chain, flight ≠ .found agent principal chain)
      (evaluation : ∀ caller, flight ≠ .alive caller)
      (entering : ∀ caller eval response, flight ≠ .enacted caller eval response) :
      s'.app.sessionStore = s.app.sessionStore :=
    (keeps_sessionStore_next opening evaluation entering).eq run
  cases flight with
  | arrived =>
      rw [hstore (by simp) (by simp) (by simp)]
      obtain ⟨_, s₁, hauth, run⟩ := Action.bind_ok_iff.mp run
      obtain ⟨-, rfl⟩ := authenticatedAs_eq_ok.mp hauth
      obtain ⟨agent, s₂, hagent, run⟩ := Action.bind_ok_iff.mp run
      obtain ⟨-, row, hrow, hread, -⟩ := getAgent_eq_ok.mp hagent
      obtain ⟨⟨principal, chain⟩, s₃, hprincipal, run⟩ := Action.bind_ok_iff.mp run
      cases run
      exact .identifies hrow hread
  | found agent principal presentedChain =>
      obtain ⟨session, s₁, hsession, run⟩ := Action.bind_ok_iff.mp run
      obtain ⟨rfl, rfl⟩ := getOrCreateSession_eq_ok.mp hsession
      cases run
      exact .opens rfl
  | admitted caller =>
      rw [hstore (by simp) (by simp) (by simp)]
      rw [next] at run
      split at run
      · cases run
        exact .refuses rfl
      · obtain ⟨stopped, s₁, -, run⟩ := Action.bind_ok_iff.mp run
        split at run
        · cases run
          exact .refuses rfl
        · cases run
          exact .admits
  | alive caller =>
      obtain ⟨eval, s₁, heval, run⟩ := Action.bind_ok_iff.mp run
      obtain ⟨rfl, rfl⟩ := evalEngine_eq_ok.mp heval
      cases run
      exact .evaluates
  | evaluated caller eval =>
      rw [hstore (by simp) (by simp) (by simp)]
      rw [next] at run
      cases hdecision : eval.decision with
      | allow =>
          rw [hdecision] at run
          obtain ⟨⟨jwt, jti⟩, s₁, -, run⟩ := Action.bind_ok_iff.mp run
          obtain ⟨now, s₂, -, run⟩ := Action.bind_ok_iff.mp run
          obtain ⟨expiresAt, s₃, -, run⟩ := Action.bind_ok_iff.mp run
          cases run
          exact .signs hdecision
      | requireApproval approver reason =>
          rw [hdecision] at run
          obtain ⟨response, s₁, hrequest, run⟩ := Action.bind_ok_iff.mp run
          cases run
          have henact : enactDecision p caller req eval s = (.ok response, s') := by
            rw [enactDecision, hdecision]
            exact hrequest
          exact .withholds (by rw [hdecision]; simp) (enactDecision_decision henact)
      | deny =>
          rw [hdecision] at run
          cases run
          exact .withholds (by rw [hdecision]; simp) rfl
  | minted caller eval jwt jti expiresAt =>
      rw [hstore (by simp) (by simp) (by simp)]
      obtain ⟨_, s₁, -, run⟩ := Action.bind_ok_iff.mp run
      cases run
      exact .records rfl
  | enacted caller eval response =>
      obtain ⟨timestamp, s₁, htimestamp, run⟩ := Action.bind_ok_iff.mp run
      cases htimestamp
      obtain ⟨now, s₂, hnow, run⟩ := Action.bind_ok_iff.mp run
      cases hnow
      obtain ⟨_, s₃, hrecord, run⟩ := Action.bind_ok_iff.mp run
      cases hrecord
      cases run
      exact .enters
  | entered caller eval response =>
      rw [hstore (by simp) (by simp) (by simp)]
      obtain ⟨_, s₁, -, run⟩ := Action.bind_ok_iff.mp run
      cases run
      exact .answers
  | answered outcome =>
      cases run
      exact .rests

/-- A step that fails has not come to the session store. -/
theorem next_fails {flight : Flight} {e : Failure} {s s' : Serving}
    (run : next p auth req flight s = (.error e, s')) :
    s'.app.sessionStore = s.app.sessionStore := by
  cases flight with
  | found agent principal presentedChain => cases run
  | alive caller => cases run
  | enacted caller eval response => cases run
  | _ => exact (keeps_sessionStore_next (by simp) (by simp) (by simp)).eq run

/-- A request that nothing interrupts is the handler as a whole. -/
theorem requestAccess_eq_complete :
    requestAccess p auth req = (stages p auth req).complete 8 .arrived := by
  rw [complete_succ, next, requestAccess, resolveCaller]
  simp only [bind_assoc, pure_bind, complete_succ (found _ _ _), next, complete_admitted]
  rfl

end Flight

/-! ## The emergency stop -/

/-- How far the emergency stop of an agent has come. -/
inductive KillStage where
  | arrived
  | flagged
  | counted (killed : Nat)
  | returned (outcome : Except Failure Nat)

namespace KillStage

variable (id : Uuid)

/-- The next atomic step of the stop: the flag, the count for the answer, the revocation. -/
def next : KillStage → Handler KillStage
  | .arrived => do
      modifySessions (·.killAgent id)
      return .flagged
  | .flagged => do
      let killed ← Action.read fun s =>
        (s.app.sessionStore.listSessions.filter fun session =>
          session.agentId == id && session.killed).length
      return .counted killed
  | .counted killed => do
      let _ ← Database.revokeAgentTokens id
      return .returned (.ok killed)
  | .returned outcome => return .returned outcome

def answer : KillStage → Handler Nat
  | .returned outcome => Action.lift outcome
  | _ => Action.fail .unreachable

def left : KillStage → Nat
  | .arrived => 3
  | .flagged => 2
  | .counted _ => 1
  | .returned _ => 0

variable {id}

theorem next_falls (stage : KillStage) :
    (next id stage).Yields fun stage' => left stage' ≤ left stage - 1 := by
  cases stage with
  | arrived => exact .bind fun _ => .pure (by simp [left])
  | flagged => exact .bind fun _ => .pure (by simp [left])
  | counted killed => exact .bind fun _ => .pure (by simp [left])
  | returned outcome => exact .pure (by simp [left])

variable (id) in
/-- The stages of an emergency stop. -/
def stages : Staged Serving Failure KillStage Nat where
  next := next id
  returned := .returned
  answer := answer
  left := left
  stays _ := rfl
  answers _ := rfl
  falls := next_falls
  last stage h := by
    cases stage with
    | returned outcome => exact ⟨outcome, rfl⟩
    | _ => cases h

theorem killAgent_eq_complete : killAgent id = (stages id).complete 3 .arrived := by
  simp only [killAgent, Staged.complete, stages, next, answer, bind_assoc, pure_bind,
    Action.lift_ok]

end KillStage

/-! ## Many handlers over one server -/

/-- What the handlers share: the state of the server and the ledger of signed tokens. -/
structure Shared where
  app : AppState
  ledger : List Minted

/-- A handler in flight: its stage, and its tape with the steps used up. -/
structure Underway (φ : Type) where
  stage : φ
  tape : Tape
  tick : Nat

namespace Underway

variable {φ α : Type}

def serving (shared : Shared) (task : Underway φ) : Serving :=
  ⟨shared.app, shared.ledger, task.tape, task.tick⟩

/-- Split a serving state into what is shared and what is the handler's own. -/
def split (own : Serving × φ) : Shared × Underway φ :=
  (⟨own.1.app, own.1.ledger⟩, ⟨own.2, own.1.tape, own.1.tick⟩)

/-- One step of a handler in flight. -/
def advance (staged : Staged Serving Failure φ α) (shared : Shared) (task : Underway φ) :
    Shared × Underway φ :=
  split (staged.advance (task.serving shared, task.stage))

theorem iterate_advance (staged : Staged Serving Failure φ α) (n : Nat) (own : Serving × φ) :
    (fun own : Shared × Underway φ => advance staged own.1 own.2)^[n] (split own) =
      split (staged.advance^[n] own) := by
  induction n generalizing own with
  | zero => rfl
  | succ n ih =>
      rw [Function.iterate_succ_apply, Function.iterate_succ_apply]
      exact ih _

/-- A handler that takes all its steps in a row reaches the outcome and the state of the
handler as a whole. -/
theorem iterate_advance_complete (staged : Staged Serving Failure φ α) (s : Serving) (stage : φ) :
    (fun own : Shared × Underway φ => advance staged own.1 own.2)^[staged.left stage]
        (split (s, stage)) =
      split ((staged.complete (staged.left stage) stage s).2,
        staged.returned (staged.complete (staged.left stage) stage s).1) := by
  rw [iterate_advance, Staged.iterate_advance s stage le_rfl]

theorem app_advance (staged : Staged Serving Failure φ α) (shared : Shared) (task : Underway φ) :
    (advance staged shared task).1.app = (staged.next task.stage (task.serving shared)).2.app := by
  rw [advance, Staged.advance]
  cases hnext : staged.next task.stage (task.serving shared) with
  | mk outcome s =>
      cases outcome with
      | error e => rfl
      | ok stage => rfl

end Underway

/-- One step of a request in flight. -/
theorem Flight.advance_moves (p : Platform) (auth : Option Uuid) (req : AccessRequest)
    (shared : Shared) (task : Underway Flight) :
    Flight.Moves p req shared.app task.stage
      (Underway.advance (stages p auth req) shared task).2.stage
      (Underway.advance (stages p auth req) shared task).1.app.sessionStore := by
  rw [Underway.advance, Staged.advance]
  cases hrun : (stages p auth req).next task.stage (task.serving shared) with
  | mk outcome s =>
      cases outcome with
      | ok flight => exact next_moves hrun
      | error e =>
          have hstore : s.app.sessionStore = shared.app.sessionStore := next_fails hrun
          show Moves p req shared.app task.stage (.answered (.error e)) s.app.sessionStore
          rw [hstore]
          exact .fails

/-- A request that runs alone is `request_access`. -/
theorem Flight.alone (p : Platform) (auth : Option Uuid) (req : AccessRequest) (s : Serving) :
    (fun own : Shared × Underway Flight => Underway.advance (Flight.stages p auth req) own.1
        own.2)^[8] (Underway.split (s, .arrived)) =
      Underway.split
        ((requestAccess p auth req s).2, .answered (requestAccess p auth req s).1) := by
  rw [Flight.requestAccess_eq_complete]
  exact Underway.iterate_advance_complete (Flight.stages p auth req) s .arrived

/-- An emergency stop that runs alone is `kill_agent`. -/
theorem KillStage.alone (id : Uuid) (s : Serving) :
    (fun own : Shared × Underway KillStage => Underway.advance (KillStage.stages id) own.1
        own.2)^[3] (Underway.split (s, .arrived)) =
      Underway.split ((killAgent id s).2, .returned (killAgent id s).1) := by
  rw [KillStage.killAgent_eq_complete]
  exact Underway.iterate_advance_complete (KillStage.stages id) s .arrived

end Patroclus
