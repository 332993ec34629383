import Patroclus.Api.Decision
import Patroclus.Policy.Counting
import Patroclus.Foundation.Latest

/-!
# What sessions accumulate

A session accumulates a count of actions, a bounded trajectory and a spend. A session
that does not exist stands as a new one does, so opening it changes nothing here. An
access request enters one action in the session that it names, once its decision has
been carried out, and nothing otherwise; a recorded spend is lost when there is no
session to add it to.
-/

namespace Patroclus

open Foundation

/-- What a session has accumulated. -/
structure Standing where
  actionsCount : Nat
  trajectory : List TrajectoryEvent
  spendTotal : F64

namespace Standing

/-- The standing of a new session. -/
def fresh : Standing := ⟨0, [], 0⟩

/-- One more action; the trajectory keeps its latest thousand events. -/
def enter (event : TrajectoryEvent) (standing : Standing) : Standing :=
  { standing with
    actionsCount := standing.actionsCount + 1
    trajectory := (standing.trajectory ++ [event]).rtake 1000 }

def spend (amount : F64) (standing : Standing) : Standing :=
  { standing with spendTotal := standing.spendTotal.add amount }

theorem trajectory_enter (event : TrajectoryEvent) (standing : Standing) :
    (standing.enter event).trajectory = (standing.trajectory ++ [event]).rtake 1000 := by
  rw [enter]

end Standing

def SessionState.standing (session : SessionState) : Standing :=
  ⟨session.actionsCount, session.trajectory, session.spendTotal⟩

theorem SessionState.standing_recordAction (event : TrajectoryEvent) (now : Instant)
    (session : SessionState) :
    (session.recordAction event now).standing = session.standing.enter event := by
  unfold recordAction Standing.enter standing List.rtake
  dsimp only
  split
  · rfl
  · rename_i hshort
    rw [Nat.sub_eq_zero_of_le (not_lt.mp hshort), List.drop_zero]

namespace SessionStore

variable {store : SessionStore} {key : String} {session : SessionState}

/-- The standing of the session under a key. -/
def standing (store : SessionStore) (key : String) : Standing :=
  ((store.sessions.lookup key).map (·.standing)).getD .fresh

theorem standing_of_lookup (h : store.sessions.lookup key = some session) :
    store.standing key = session.standing := by
  rw [standing, h, Option.map_some, Option.getD_some]

theorem standing_of_missing (h : store.sessions.lookup key = none) :
    store.standing key = .fresh := by
  rw [standing, h, Option.map_none, Option.getD_none]

theorem standing_sessionFor (store : SessionStore) (req : AccessRequest) :
    (store.sessionFor req).standing = store.standing req.sessionKey := by
  rw [sessionFor, standing]
  cases store.sessions.lookup req.sessionKey with
  | none => rfl
  | some session => rfl

theorem standing_congr {store' : SessionStore} (h : store.sessions = store'.sessions) :
    store.standing = store'.standing := by
  funext key
  rw [standing, standing, h]

/-- Opening a session changes no standing. -/
theorem standing_getOrCreateSession (sessionId : String) (agentId : Uuid)
    (principalId : Option Uuid) (now : Instant) (store : SessionStore) :
    (store.getOrCreateSession sessionId agentId principalId now).2.standing = store.standing := by
  rw [getOrCreateSession]
  cases hlookup : store.sessions.lookup sessionId with
  | some session => rfl
  | none =>
      funext key
      by_cases hkey : key = sessionId
      · rw [hkey, standing_of_missing hlookup, standing, AList.lookup_insert]
        rfl
      · rw [standing, AList.lookup_insert_ne hkey, standing]

/-- What an update of a session under a key does to the standings, if it is there. -/
theorem standing_modifyAt {f : SessionState → SessionState} {g : Standing → Standing}
    (h : ∀ session, (f session).standing = g session.standing) (key : String)
    (store : SessionStore) :
    ({ store with sessions := modifyAt key f store.sessions } : SessionStore).standing =
      if (store.sessions.lookup key).isSome then
        Function.update store.standing key (g (store.standing key))
      else store.standing := by
  cases hlookup : store.sessions.lookup key with
  | none =>
      rw [modifyAt, hlookup]
      rfl
  | some session =>
      funext other
      rw [Option.isSome_some, if_pos rfl]
      by_cases hother : other = key
      · rw [hother, Function.update_self, standing, standing_of_lookup hlookup]
        dsimp only
        rw [lookup_modifyAt_self, hlookup, ← h]
        rfl
      · rw [Function.update_of_ne hother, standing]
        dsimp only
        rw [lookup_modifyAt_of_ne hother]
        rfl

end SessionStore

/-! ## Access requests -/

def Serving.standing (s : Serving) : String → Standing := s.app.sessionStore.standing

section

variable (p : Platform)

/-- `request_access` up to the entry of its decision: the answer, with the caller and the
evaluation to be entered. A stopped caller is answered without one. -/
def decideAccess (auth : Option Uuid) (req : AccessRequest) :
    Handler (AccessResponse × Option (Caller × PolicyEvaluation)) := do
  let caller ← resolveCaller p auth req
  if caller.session.killed then return (sessionKilledResponse, none)
  else if ← Action.read fun s => s.app.sessionStore.isAgentKilled caller.agent.id then
    return (agentKilledResponse, none)
  else
    let eval ← evalEngine (caller.context req)
    let response ← enactDecision p caller req eval
    return (response, some (caller, eval))

end

theorem requestAccess_eq_decideAccess (p : Platform) (auth : Option Uuid) (req : AccessRequest) :
    requestAccess p auth req = (do
      let (response, decided) ← decideAccess p auth req
      match decided with
      | none => return response
      | some (caller, eval) =>
          recordDecision p caller req eval response
          return response) := by
  rw [requestAccess, decideAccess, bind_assoc]
  congr
  funext caller
  split
  · rfl
  · rw [bind_assoc]
    congr
    funext stopped
    split
    · rfl
    · simp only [bind_assoc]
      rfl

theorem ignoresGrants_standing : IgnoresGrants Serving.standing :=
  ⟨fun _ => rfl, fun _ _ => rfl, fun _ _ => rfl, fun _ _ => rfl⟩

variable {p : Platform} {s finish : Serving}

theorem World.standing_serving (w : World) (tape : Tape) :
    (w.serving tape).standing = w.app.sessionStore.standing := rfl

section

variable {γ : Type*} {view : Serving → γ}
  (opening : ∀ sessionId agentId principalId,
    (getOrCreateSession sessionId agentId principalId).Keeps view)

include opening

theorem keeps_resolveCaller_of_opening (tick : TickFree view) (auth : Option Uuid)
    (req : AccessRequest) : (resolveCaller p auth req).Keeps view := by
  refine (keeps_authenticatedAs auth _).bind fun _ => ?_
  refine (Database.keeps_getAgent tick _).bind fun agent => ?_
  refine (keeps_requestPrincipal tick agent req).bind fun _ => ?_
  refine (opening _ _ _).bind fun _ => ?_
  exact .pure _

/-- A view that sees neither the opening of a session nor an evaluation sees a request only
when its decision is entered. -/
theorem keeps_decideAccess (grants : IgnoresGrants view)
    (evaluation : ∀ ctx, (evalEngine ctx).Keeps view) (auth : Option Uuid) (req : AccessRequest) :
    (decideAccess p auth req).Keeps view := by
  refine (keeps_resolveCaller_of_opening opening grants.tick auth req).bind fun caller => ?_
  refine .ite (.pure _) ?_
  refine (Action.Keeps.read _).bind fun _ => ?_
  refine .ite (.pure _) ?_
  refine (evaluation _).bind fun _ => ?_
  refine (keeps_enactDecision grants caller req _).bind fun _ => ?_
  exact .pure _

end

theorem keeps_evalEngine_standing (ctx : PolicyContext) :
    (evalEngine ctx).Keeps Serving.standing := fun _ =>
  SessionStore.standing_congr YamlEngine.sessions_evaluate

theorem keeps_getOrCreateSession_standing (sessionId : String) (agentId : Uuid)
    (principalId : Option Uuid) :
    (getOrCreateSession sessionId agentId principalId).Keeps Serving.standing := fun _ =>
  SessionStore.standing_getOrCreateSession _ _ _ _ _

theorem keeps_resolveCaller_standing (auth : Option Uuid) (req : AccessRequest) :
    (resolveCaller p auth req).Keeps Serving.standing :=
  keeps_resolveCaller_of_opening keeps_getOrCreateSession_standing ignoresGrants_standing.tick
    auth req

/-- A dry run changes no standing. -/
theorem keeps_checkAccess_standing (auth : Option Uuid) (req : AccessRequest) :
    (checkAccess p auth req).Keeps Serving.standing := by
  refine (keeps_authenticatedAs auth _).bind fun _ => ?_
  refine (Database.keeps_getAgent ignoresGrants_standing.tick _).bind fun agent => ?_
  refine (keeps_ownerPrincipal ignoresGrants_standing.tick agent).bind fun _ => ?_
  refine (Action.Keeps.read _).bind fun _ => ?_
  refine .ite (.pure _) ?_
  refine (keeps_evalEngine_standing _).bind fun _ => ?_
  refine (Database.keeps_createAuditEntry ignoresGrants_standing.tick fun _ _ _ => rfl).bind
    fun _ => ?_
  exact .pure _

/-- A decision that is to be entered finds its session open. -/
theorem decideAccess_opened {auth : Option Uuid} {req : AccessRequest} {response : AccessResponse}
    {caller : Caller} {eval : PolicyEvaluation}
    (run : decideAccess p auth req s = (.ok (response, some (caller, eval)), finish)) :
    caller.sessionId = req.sessionKey ∧
      finish.app.sessionStore.sessions.lookup req.sessionKey = some caller.session := by
  obtain ⟨caller', s₁, hcaller, run⟩ := Action.bind_ok_iff.mp run
  split at run
  · cases run
  · obtain ⟨stopped, s₁', hread, run⟩ := Action.bind_ok_iff.mp run
    cases hread
    split at run
    · cases run
    · obtain ⟨eval', s₂, heval, run⟩ := Action.bind_ok_iff.mp run
      obtain ⟨response', s₃, henact, run⟩ := Action.bind_ok_iff.mp run
      cases run
      have hfound := resolveCaller_found hcaller
      have hkept := enactDecision_sessionStore henact
      obtain ⟨-, rfl⟩ := evalEngine_eq_ok.mp heval
      refine ⟨hfound.sessionId, ?_⟩
      rw [hkept, ← hfound.lookup]
      exact congrArg (·.lookup req.sessionKey) YamlEngine.sessions_evaluate

/-- Recording a decision enters it in its session, whether or not it reaches the audit log. -/
theorem recordDecision_enters (caller : Caller) (req : AccessRequest) (eval : PolicyEvaluation)
    (response : AccessResponse) (s : Serving) :
    (recordDecision p caller req eval response).WP (fun _ finish => finish.app.sessionStore =
      s.app.sessionStore.recordAction caller.sessionId ⟨req.action, req.resource, eval.decision,
        s.tape.now s.tick⟩ (s.tape.now (s.tick + 1))) s := by
  refine .bind_run utcNow_run (.bind_run utcNow_run (.bind_run (modifyApp_run _) ?_))
  have hkept (entry : CreateAuditEntry) :
      (do let _ ← Database.createAuditEntry p entry; return () : Handler Unit).Keeps
        fun s => s.app.sessionStore :=
    (Database.keeps_createAuditEntry (fun _ => rfl) fun _ _ _ => rfl).bind fun _ => .pure _
  exact (hkept _).wp fun _ _ h => h

/-- The decision that a request enters in its session, if it enters one. -/
def enteredDecision (p : Platform) (auth : Option Uuid) (req : AccessRequest) (s : Serving) :
    Option Decision :=
  match (decideAccess p auth req s).1 with
  | .ok (_, some (_, eval)) => some eval.decision
  | _ => none

/-- An access request enters its action in the session that it names if its decision is
carried out, and changes no standing otherwise. -/
theorem requestAccess_standing (p : Platform) (auth : Option Uuid) (req : AccessRequest)
    (s : Serving) : (requestAccess p auth req).WP (fun _ finish =>
      (enteredDecision p auth req s = none ∧ finish.standing = s.standing) ∨
      ∃ decision timestamp, enteredDecision p auth req s = some decision ∧
        finish.standing = Function.update s.standing req.sessionKey
          ((s.standing req.sessionKey).enter
            ⟨req.action, req.resource, decision, timestamp⟩)) s := by
  have hkept {outcome : Except Failure (AccessResponse × Option (Caller × PolicyEvaluation))}
      {middle : Serving} (run : decideAccess p auth req s = (outcome, middle)) :
      middle.standing = s.standing :=
    (keeps_decideAccess keeps_getOrCreateSession_standing ignoresGrants_standing
      keeps_evalEngine_standing auth req).eq run
  rw [requestAccess_eq_decideAccess, enteredDecision]
  apply Action.WP.bind_of
  · rintro ⟨response, decided⟩ middle hrun
    rw [hrun]
    cases decided with
    | none => exact .inl ⟨rfl, hkept hrun⟩
    | some decided =>
        obtain ⟨caller, eval⟩ := decided
        obtain ⟨hkey, hopen⟩ := decideAccess_opened hrun
        apply wp_wrap
        refine (recordDecision_enters caller req eval response middle).mono ?_
        rintro outcome finish hfinish
        refine .inr ⟨eval.decision, middle.tape.now middle.tick, rfl, ?_⟩
        rw [Serving.standing, hfinish, hkey, SessionStore.recordAction,
          SessionStore.standing_modifyAt fun session => session.standing_recordAction _ _, hopen,
          Option.isSome_some, if_pos rfl, ← hkept hrun]
        rfl
  · rintro e finish hrun
    rw [hrun]
    exact .inl ⟨rfl, hkept hrun⟩

theorem World.standing_step {w : World} {input : Input} {call : Call}
    (event : input.event = .call call) (up : w.up = true) :
    (w.step p input).app.sessionStore.standing =
      (serve p call (w.serving input.tape)).2.standing := by
  simp only [World.step, event, up, if_true]
  rfl

end Patroclus
