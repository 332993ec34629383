import Patroclus.Api.Standing
import Patroclus.Foundation.Run
import Patroclus.Foundation.Unwinding
import Patroclus.Api.Interference

/-!
# Workflow order

A rule may require that an action comes first. What counts is the trajectory of the
session, in which `request_access` enters every decision that it carries out: allowed or
not, an action is a prior action, until a thousand others have followed it. The dry run
enters nothing, and where it finds the session it puts the same condition.
-/

namespace Patroclus

open Foundation

/-! ## The condition -/

namespace Rule

variable {rule : Rule} {store : SessionStore} {ctx : PolicyContext} {session : SessionState}
  {key prior : String}

/-- The last of the conditions on a session: the reason for which its trajectory refuses
the rule, if it does. -/
def checkPriorAction (rule : Rule) (session : SessionState) : Option String :=
  rule.requirePriorAction.bind fun requiredPrior =>
    if session.trajectory.any (·.action == requiredPrior) then none
    else
      some ("Required prior action '" ++ requiredPrior ++
        "' not found in session trajectory")

/-- The rule without this condition. -/
def withoutPrior (rule : Rule) : Rule := { rule with requirePriorAction := none }

/-- The context passes this condition; there is none where no session is found. It makes up
all conditions with those of the rule without it
(`checkTemporalConditions_eq_none_iff_passesPrior`). -/
def PassesPrior (rule : Rule) (store : SessionStore) (ctx : PolicyContext) : Prop :=
  (ctx.sessionId.bind store.getSession).bind rule.checkPriorAction = none

theorem checkTemporalConditions_eq_orElse : rule.checkTemporalConditions store ctx =
    (rule.withoutPrior.checkTemporalConditions store ctx <|>
      (ctx.sessionId.bind store.getSession).bind rule.checkPriorAction) := by
  rw [checkTemporalConditions, checkTemporalConditions]
  cases ctx.sessionId.bind store.getSession with
  | none => rfl
  | some session =>
      simp only [Option.orElse_eq_orElse, Option.orElse_eq_or, Option.bind_some, withoutPrior,
        Option.bind_none, Option.or_none, Option.or_assoc]
      rfl

/-- The conditions on the session are the others and this one. -/
theorem checkTemporalConditions_eq_none_iff_passesPrior :
    rule.checkTemporalConditions store ctx = none ↔
      rule.withoutPrior.checkTemporalConditions store ctx = none ∧ rule.PassesPrior store ctx := by
  rw [checkTemporalConditions_eq_orElse, Option.orElse_eq_orElse, Option.orElse_eq_or,
    Option.or_eq_none_iff]
  rfl

theorem passesPrior_iff (required : rule.requirePriorAction = some prior)
    (session : ctx.sessionId = some key) (opened : (store.sessions.lookup key).isSome = true) :
    rule.PassesPrior store ctx ↔ prior ∈ (store.standing key).trajectory.map (·.action) := by
  obtain ⟨state, hstate⟩ := Option.isSome_iff_exists.mp opened
  have hget : ctx.sessionId.bind store.getSession = some state := by
    rw [session, Option.bind_some, SessionStore.getSession, hstate]
  rw [PassesPrior, hget, Option.bind_some, checkPriorAction, required, Option.bind_some,
    SessionStore.standing_of_lookup hstate]
  simp [SessionState.standing]

end Rule

/-- A resolved caller passes the condition if the session of the request does. -/
theorem passesPrior_of_resolved {p : Platform} {auth : Option Uuid} {req : AccessRequest}
    {caller : Caller} {s s₁ : Serving} {rule : Rule} {prior : String}
    (resolved : resolveCaller p auth req s = (.ok caller, s₁))
    (required : rule.requirePriorAction = some prior) :
    rule.PassesPrior s₁.app.sessionStore (caller.context req) ↔
      prior ∈ (s.standing req.sessionKey).trajectory.map (·.action) := by
  have hfound := resolveCaller_found resolved
  have hopen : (s₁.app.sessionStore.sessions.lookup req.sessionKey).isSome = true := by
    rw [hfound.lookup]
    rfl
  have hkept : s₁.standing = s.standing := (keeps_resolveCaller_standing auth req).eq resolved
  rw [Rule.passesPrior_iff required (congrArg some hfound.sessionId) hopen, ← hkept]
  rfl

/-! ## The actions of a run -/

/-- The action that an input enters in a session, if it does: that of an access request
for this session whose decision is carried out. -/
def World.entered (p : Platform) (key : String) (w : World) (input : Input) : Option String :=
  match input.event with
  | .call (.requestAccess auth req) =>
      if req.sessionKey = key then
        (enteredDecision p auth req (w.serving input.tape)).map fun _ => req.action
      else none
  | _ => none

/-- The actions that a run enters in a session, in their order. -/
def World.actionsIn (p : Platform) (w : World) (inputs : List Input) (key : String) : List String :=
  (transcript (World.step p) (World.entered p key) w inputs).filterMap (·.2)

/-- The latest thousand of them. -/
def World.recentActions (p : Platform) (w : World) (inputs : List Input) (key : String) :
    List String :=
  (w.actionsIn p inputs key).rtake 1000

/-- Throughout a run, the condition on prior actions asks whether the action is among the
latest thousand that requests have entered in the session, and a request or a dry run that
finds it missing is denied. -/
structure WorkflowOrdered (p : Platform) (w : World) (inputs : List Input) : Prop where
  request : ∀ done input, done ++ [input] <+: inputs → ∀ auth req,
    input.event = .call (.requestAccess auth req) → ∀ caller s₁,
    resolveCaller p auth req ((w.run p done).serving input.tape) = (.ok caller, s₁) →
    ∀ (rule : Rule) prior, rule.requirePriorAction = some prior →
      (rule.PassesPrior s₁.app.sessionStore (caller.context req) ↔
        prior ∈ w.recentActions p done req.sessionKey)
  requestDenied : ∀ done input, done ++ [input] <+: inputs → ∀ auth req response,
    input.event = .call (.requestAccess auth req) →
    (w.run p done).answer p input = .ok (.access response) →
    ∀ (rule : Rule) prior, rule.ComesFirstFor (w.run p done).app req →
      rule.requirePriorAction = some prior → prior ∉ w.recentActions p done req.sessionKey →
      response.decision = "deny"
  check : ∀ done input, done ++ [input] <+: inputs → ∀ auth req key,
    input.event = .call (.check auth req) → req.context.bind (·.sessionId) = some key →
    ((w.run p done).app.sessionStore.sessions.lookup key).isSome = true →
    ∀ (agent : Agent) principal (rule : Rule) prior, rule.requirePriorAction = some prior →
      (rule.PassesPrior (w.run p done).app.sessionStore (req.rehearsal agent principal) ↔
        prior ∈ w.recentActions p done key)
  checkDenied : ∀ done input, done ++ [input] <+: inputs → ∀ auth req key response,
    input.event = .call (.check auth req) → req.context.bind (·.sessionId) = some key →
    ((w.run p done).app.sessionStore.sessions.lookup key).isSome = true →
    (w.run p done).answer p input = .ok (.check response) →
    ∀ (rule : Rule) prior, rule.ComesFirstFor (w.run p done).app req →
      rule.requirePriorAction = some prior → prior ∉ w.recentActions p done key →
      response.decision = "deny"

section

variable {p : Platform} {w : World} {inputs done : List Input} {input : Input}

theorem World.actionsIn_concat (key : String) : w.actionsIn p (done ++ [input]) key =
    w.actionsIn p done key ++ ((w.run p done).entered p key input).toList := by
  unfold World.actionsIn
  rw [transcript_concat, List.filterMap_append]
  rfl

theorem Input.isCall_of_isAccess (h : input.isAccess = true) :
    ∃ call, input.event = .call call := by
  cases hevent : input.event with
  | restart =>
      rw [Input.isAccess, hevent] at h
      cases h
  | call call => exact ⟨call, rfl⟩

/-- An access call enters in a trajectory what it enters in the session. -/
theorem World.trajectory_step (access : input.isAccess = true) (up : w.up = true) (key : String) :
    ((w.step p input).app.sessionStore.standing key).trajectory.map (·.action) =
      match w.entered p key input with
      | none => (w.app.sessionStore.standing key).trajectory.map (·.action)
      | some action =>
          ((w.app.sessionStore.standing key).trajectory.map (·.action) ++ [action]).rtake 1000 := by
  cases hevent : input.event with
  | restart =>
      rw [Input.isAccess, hevent] at access
      cases access
  | call call =>
      rw [Input.isAccess, hevent] at access
      rw [World.standing_step hevent up]
      cases call with
      | requestAccess auth req =>
          rw [serve, reply_state]
          simp only [World.entered, hevent]
          obtain ⟨hnone, hkept⟩ | ⟨decision, timestamp, hsome, hentered⟩ :=
            requestAccess_standing p auth req (w.serving input.tape)
          · rw [hnone, hkept, Option.map_none, ite_self]
            rfl
          · rw [hsome, hentered, Option.map_some]
            by_cases hkey : req.sessionKey = key
            · rw [if_pos hkey, hkey, Function.update_self]
              rw [Standing.trajectory_enter, map_rtake, List.map_append, List.map_singleton,
                World.standing_serving]
            · rw [if_neg hkey, Function.update_of_ne (Ne.symm hkey)]
              rfl
      | check auth req =>
          simp only [serve, reply_state, World.entered, hevent]
          rw [keeps_checkAccess_standing auth req (w.serving input.tape)]
          rfl
      | _ => cases access

/-- The trajectory of a session holds the latest thousand actions of the run. -/
theorem World.trajectory_concat (access : input.isAccess = true) (up : (w.run p done).up = true)
    {key : String}
    (kept : ((w.run p done).app.sessionStore.standing key).trajectory.map (·.action) =
      w.recentActions p done key) :
    ((w.run p (done ++ [input])).app.sessionStore.standing key).trajectory.map (·.action) =
      w.recentActions p (done ++ [input]) key := by
  have hrun : w.run p (done ++ [input]) = (w.run p done).step p input := List.foldl_append
  rw [hrun, World.trajectory_step access up, World.recentActions, World.actionsIn_concat, kept]
  cases (w.run p done).entered p key input with
  | none =>
      rw [Option.toList_none, List.append_nil]
      rfl
  | some action => exact rtake_rtake_concat 1000 _ action

theorem World.trajectory_run (up : w.up = true) (start : w.app.sessionStore.sessions = ∅)
    (access : ∀ input ∈ done, input.isAccess = true) (key : String) :
    ((w.run p done).app.sessionStore.standing key).trajectory.map (·.action) =
      w.recentActions p done key := by
  induction done using List.reverseRecOn with
  | nil =>
      rw [SessionStore.standing_of_missing (by rw [World.run, List.foldl_nil, start]; rfl),
        World.recentActions, World.actionsIn, transcript, List.filterMap_nil, List.rtake_nil]
      rfl
  | append_singleton done input ih =>
      obtain ⟨hdone, hinput⟩ := List.forall_mem_append.mp access
      exact World.trajectory_concat (hinput input List.mem_cons_self)
        (World.up_run up fun next hnext => Input.isCall_of_isAccess (hdone next hnext)) (ih hdone)

/-- A session that lacks the required action is refused. -/
theorem Rule.refuses_of_missing {rule : Rule} {prior : String} {session : SessionState}
    (required : rule.requirePriorAction = some prior)
    (missing : prior ∉ session.trajectory.map (·.action)) : ¬ rule.SessionAllows session := by
  intro hallows
  obtain ⟨event, hevent, haction⟩ := hallows.prior prior required
  exact missing (List.mem_map.mpr ⟨event, hevent, haction⟩)

/-- In every run of access calls over no sessions, the condition on prior actions is about
the latest thousand actions that requests have entered in the session. -/
theorem workflowOrdered (up : w.up = true) (start : w.app.sessionStore.sessions = ∅)
    (access : ∀ input ∈ inputs, input.isAccess = true) : WorkflowOrdered p w inputs := by
  have hkept (done : List Input) (input : Input) (hdone : done ++ [input] <+: inputs)
      (key : String) : ((w.run p done).app.sessionStore.standing key).trajectory.map (·.action) =
        w.recentActions p done key :=
    World.trajectory_run up start (fun next hnext =>
      access next (hdone.subset (List.mem_append_left _ hnext))) key
  have hup (done : List Input) (input : Input) (hdone : done ++ [input] <+: inputs) :
      (w.run p done).up = true :=
    World.up_run up fun next hnext => Input.isCall_of_isAccess
      (access next (hdone.subset (List.mem_append_left _ hnext)))
  constructor
  · intro done input hdone auth req hevent caller s₁ hresolved rule prior hrequired
    rw [passesPrior_of_resolved hresolved hrequired, World.standing_serving,
      hkept done input hdone]
  · intro done input hdone auth req response hevent hanswer rule prior hfirst hrequired hmissing
    obtain ⟨finish, hserve⟩ := (World.reply_eq_ok (hup done input hdone)).mp
      ((World.answer_call hevent).symm.trans hanswer)
    obtain ⟨response', s, hrun, hpure⟩ := Action.bind_ok_iff.mp hserve
    cases hpure
    apply requestAccess_refused hrun hfirst
    apply Rule.refuses_of_missing hrequired
    rw [← hkept done input hdone, ← SessionStore.standing_sessionFor] at hmissing
    exact hmissing
  · intro done input hdone auth req key hevent hnamed hopen agent principal rule prior hrequired
    rw [Rule.passesPrior_iff hrequired hnamed hopen, hkept done input hdone]
  · intro done input hdone auth req key response hevent hnamed hopen hanswer rule prior hfirst
      hrequired hmissing
    obtain ⟨state, hstate⟩ := Option.isSome_iff_exists.mp hopen
    obtain ⟨finish, hserve⟩ := (World.reply_eq_ok (hup done input hdone)).mp
      ((World.answer_call hevent).symm.trans hanswer)
    obtain ⟨response', s, hrun, hpure⟩ := Action.bind_ok_iff.mp hserve
    cases hpure
    apply checkAccess_refused hrun hfirst hnamed hstate
    apply Rule.refuses_of_missing hrequired
    rw [← hkept done input hdone, SessionStore.standing_of_lookup hstate] at hmissing
    exact hmissing

end

/-- Loading is denied, and trading is allowed after it. -/
def tradingRules : List Rule := [
  { Rule.plain "deny" "test" with actions := ["load"] },
  { Rule.plain "allow" "test" with requirePriorAction := some "load" }]

/-- A request of the agent for an action in the session `s`. -/
def askingFor (action : String) : AccessRequest :=
  ⟨⟨300⟩, action, "account", [], none, some ⟨some "s"⟩⟩

def asking (action : String) : Input :=
  .steady (.call (.requestAccess (some ⟨300⟩) (askingFor action))) opening 500

theorem workflowOrdered_trading :
    WorkflowOrdered .unsigned (ruledWorld tradingRules) [asking "load", asking "trade"] := by
  refine workflowOrdered rfl rfl ?_
  intro input hinput
  rcases List.mem_pair.mp hinput with rfl | rfl
  · rfl
  · rfl

/-- The input asks for an action in a session. -/
def Input.AsksFor (key action : String) (input : Input) : Prop :=
  ∃ auth req, input.event = .call (.requestAccess auth req) ∧ req.sessionKey = key ∧
    req.action = action

/-- The workflow as a promise about all runs of one agent: the condition passes exactly if an
earlier request for the action in the session has been allowed. -/
def WorkflowsSequenced : Prop :=
  ∀ (p : Platform) (w : World) (inputs : List Input) (agentId : Uuid), w.up = true →
    w.app.sessionStore.sessions = ∅ →
    (∀ input ∈ inputs, ∃ req, req.agentId = agentId ∧
      (input.event = .call (.requestAccess (some agentId) req) ∨
        input.event = .call (.check (some agentId) req))) →
    ∀ done input, done ++ [input] <+: inputs → ∀ auth req,
      input.event = .call (.requestAccess auth req) → ∀ caller s₁,
      resolveCaller p auth req ((w.run p done).serving input.tape) = (.ok caller, s₁) →
      ∀ (rule : Rule) prior, rule.ComesFirstFor (w.run p done).app req →
        rule.requirePriorAction = some prior →
        (rule.PassesPrior s₁.app.sessionStore (caller.context req) ↔
          ∃ answered ∈ transcript (World.step p) (World.answer p) w done,
            answered.1.AsksFor req.sessionKey prior ∧ answerDecision answered.2 = some "allow")

/-- A denied attempt is a prior action. -/
theorem not_workflowsSequenced : ¬ WorkflowsSequenced := by
  intro h
  let loaded := (ruledWorld tradingRules).run .unsigned [asking "load"]
  let trading := asking "trade"
  let rule : Rule := { Rule.plain "allow" "test" with requirePriorAction := some "load" }
  have hresolves : Resolves .unsigned (some ⟨300⟩) (askingFor "trade")
      (loaded.serving trading.tape) := ⟨rfl, by decide +kernel, nofun⟩
  obtain ⟨caller, s₁, hresolved, -⟩ := hresolves.returns fun _ => rfl
  have hone : ∀ input ∈ [asking "load", trading], ∃ req : AccessRequest, req.agentId = ⟨300⟩ ∧
      (input.event = .call (.requestAccess (some ⟨300⟩) req) ∨
        input.event = .call (.check (some ⟨300⟩) req)) := by
    intro input hinput
    rcases List.mem_pair.mp hinput with rfl | rfl
    · exact ⟨_, rfl, .inl rfl⟩
    · exact ⟨_, rfl, .inl rfl⟩
  have hfirst : rule.ComesFirstFor loaded.app (askingFor "trade") := by
    refine ⟨registeredAgent, rfl, ⟨.inl rfl, .inl rfl, .inl rfl, .inl rfl⟩, [_], [], rfl, ?_⟩
    intro earlier hearlier hcovers
    rw [List.mem_singleton.mp hearlier] at hcovers
    obtain hnone | hload := hcovers.action
    · cases hnone
    · exact absurd hload (by decide)
  have hiff := h .unsigned (ruledWorld tradingRules) [asking "load", trading] ⟨300⟩ rfl rfl hone
    [asking "load"] trading List.prefix_rfl _ _ rfl caller s₁ hresolved rule "load" hfirst rfl
  have hrequired : rule.requirePriorAction = some "load" := rfl
  have hpasses := (passesPrior_of_resolved hresolved hrequired).mpr (by decide +kernel)
  obtain ⟨answered, hanswered, -, hallowed⟩ := hiff.mp hpasses
  rw [List.mem_singleton.mp hanswered] at hallowed
  revert hallowed
  decide +kernel

end Patroclus
