import Patroclus.Api.Footprint
import Patroclus.Foundation.Unwinding

/-!
# What an access call writes

An access call writes under few names: `request_access` in the session it runs in,
in the window it is counted in, and under the ids it draws; the dry run in a window
only. Servers look alike before and after it to every call whose footprint has none
of these. Deleting such calls from a run of access calls therefore leaves the
answers to the others as they are.
-/

namespace Patroclus

open Foundation

/-- Nobody has stopped the agent, the rule that comes first has a rate limit, and the
session does not refuse it. -/
def AccessRequest.IsCounted (req : AccessRequest) (app : AppState)
    (session : Option SessionState) : Prop :=
  req.agentId ∉ app.sessionStore.killedAgents ∧ ∃ (row : AgentRow) (rule : Rule),
    app.db.agents.find? (·.id == req.agentId) = some row ∧
    rule.ComesFirst app.policyEngine.rules row.principalType req.action req.resource
      req.requestedScopes ∧
    rule.rateLimitPerMinute ≠ none ∧ ∀ state, session = some state → rule.SessionAllows state

/-- The names under which a call writes are not in the footprint. -/
def Serving.Spares (p : Platform) (s : Serving) (f : Footprint) : Call → Prop
  | .requestAccess auth req => Resolves p auth req s → req.sessionKey ∉ f.sessions ∧
      (∀ n, s.tape.uuid n ∉ f.ids) ∧
      (req.IsCounted s.app (some (s.app.sessionStore.sessionFor req)) →
        Rule.rateLimitKey req.sessionKey req.action req.resource ∉ f.rates)
  | .check auth req => auth = some req.agentId → ∀ sessionId,
      req.context.bind (·.sessionId) = some sessionId →
      req.IsCounted s.app (s.app.sessionStore.sessions.lookup sessionId) →
        Rule.rateLimitKey sessionId req.action req.resource ∉ f.rates
  | _ => False

/-- The server looks alike before and after. -/
structure Serving.Leaves (f : Footprint) (s finish : Serving) : Prop where
  app : finish.app.Alike f s.app
  tape : finish.tape = s.tape

section

variable {p : Platform} {f : Footprint} {s middle finish : Serving} {req : AccessRequest}

theorem Serving.Leaves.trans (h : s.Leaves f middle) (h' : middle.Leaves f finish) :
    s.Leaves f finish :=
  ⟨h'.app.trans h.app, h'.tape.trans h.tape⟩

theorem Serving.leaves_of_app (happ : finish.app = s.app) (htape : finish.tape = s.tape) :
    s.Leaves f finish :=
  ⟨happ ▸ .refl _, htape⟩

/-- A sequence leaves the server alike when its parts do. -/
theorem leaves_bind {α β : Type} {act : Handler α} {next : α → Handler β}
    (first : s.Leaves f (act s).2)
    (rest : ∀ a middle, act s = (.ok a, middle) → middle.Leaves f (next a middle).2) :
    s.Leaves f ((act >>= next) s).2 := by
  rcases hact : act s with ⟨outcome, middle⟩
  rw [hact] at first
  cases outcome with
  | ok a =>
      rw [Action.bind_run_ok hact]
      exact first.trans (rest a middle hact)
  | error e =>
      rw [Action.bind_run_error hact]
      exact first

theorem leaves_of_keeps {α : Type} {act : Handler α} (h : act.Keeps Serving.still)
    (s : Serving) : s.Leaves f (act s).2 :=
  Serving.leaves_of_app (congrArg Prod.fst (h s)) (congrArg (·.2.2) (h s))

/-! ## Tokens and approval requests -/

theorem leaves_recordToken {id : Uuid} (hid : id ∉ f.ids) (agentId : Uuid) (scopes : List String)
    (audience : String) (expiresAt : Instant) (s : Serving) :
    s.Leaves f (Database.recordToken p id.toString none agentId scopes audience expiresAt s).2 := by
  rcases hrun : Database.recordToken p id.toString none agentId scopes audience expiresAt s with
    ⟨outcome, finish⟩
  cases outcome with
  | error e =>
      rw [Database.recordToken_error hrun]
      exact ⟨.refl _, rfl⟩
  | ok a =>
      obtain ⟨row, hrow, rfl⟩ := Database.recordToken_ok hrun
      refine ⟨{ AppState.Alike.refl s.app with tokenTaken := fun other hother => ?_ }, rfl⟩
      have hne : (row.id == other.toString) = false := by
        rw [hrow.id, beq_eq_false_iff_ne]
        exact fun h => hid (Uuid.toString_injective h ▸ hother)
      simp [hne]

theorem leaves_issue (origin : Origin) (params : IssueTokenParams) (s : Serving) :
    s.Leaves f (issue p origin params s).2 := by
  rcases hrun : issue p origin params s with ⟨outcome, finish⟩
  cases outcome with
  | error e =>
      rw [issue_eq_error hrun]
      exact ⟨.refl _, rfl⟩
  | ok result =>
      obtain ⟨minted, -, -, rfl⟩ := issue_eq_ok.mp hrun
      exact ⟨.refl _, rfl⟩

theorem leaves_grantAccess (ids : ∀ n, s.tape.uuid n ∉ f.ids) (caller : Caller)
    (req : AccessRequest) (eval : PolicyEvaluation) :
    s.Leaves f (grantAccess p caller req eval s).2 := by
  apply leaves_bind (leaves_issue _ _ s)
  intro result s₁ hissue
  obtain ⟨minted, hsign, rfl, -⟩ := issue_eq_ok.mp hissue
  rw [sign_jti hsign]
  apply leaves_bind (leaves_of_keeps (keeps_utcNow tickFree_still) _)
  intro now s₂ _
  apply leaves_bind (leaves_of_keeps (keeps_orPanic _) _)
  intro expiresAt s₃ _
  exact leaves_bind (leaves_recordToken (ids _) _ _ _ _ _) fun _ s₄ _ => ⟨.refl _, rfl⟩

theorem leaves_insertApprovalRequest {row : ApprovalRow} (hid : row.id ∉ f.ids) (s : Serving) :
    s.Leaves f (sql (Db.insertApprovalRequest p.foreignKeys row) s).2 := by
  rcases hrun : sql (Db.insertApprovalRequest p.foreignKeys row) s with ⟨outcome, finish⟩
  cases outcome with
  | error e =>
      rw [sql_eq_error hrun]
      exact ⟨.refl _, rfl⟩
  | ok a =>
      obtain ⟨-, db, hdb, rfl⟩ := sql_eq_ok.mp hrun
      obtain ⟨-, -, rfl⟩ := Db.insertApprovalRequest_eq_ok.mp hdb
      refine ⟨{ AppState.Alike.refl s.app with approval := fun other hother => ?_ }, rfl⟩
      have hne : (row.id == other) = false := by
        rw [beq_eq_false_iff_ne]
        exact fun h => hid (h ▸ hother)
      simp [hne]

theorem leaves_createApprovalRequest (ids : ∀ n, s.tape.uuid n ∉ f.ids) (agentId : Uuid)
    (principalId resourceId : Option Uuid) (action : String) (requestedScopes : List String)
    (ttlSeconds : Nat) :
    s.Leaves f (Database.createApprovalRequest p agentId principalId resourceId action
      requestedScopes ttlSeconds s).2 := by
  apply leaves_bind (leaves_of_keeps (keeps_nowV7 tickFree_still) _)
  intro id s₁ hdrawn
  apply leaves_bind (leaves_of_keeps (keeps_utcNow tickFree_still) _)
  intro now s₂ _
  cases now.addSeconds (asI64 ttlSeconds) with
  | none => exact ⟨.refl _, rfl⟩
  | some expiresAt =>
      refine leaves_bind ?_ fun _ s₃ _ =>
        leaves_of_keeps (Database.keeps_getApprovalRequest tickFree_still _) _
      cases hdrawn
      exact leaves_insertApprovalRequest (ids _) _

theorem leaves_createAuditEntry (entry : CreateAuditEntry) (s : Serving) :
    s.Leaves f (Database.createAuditEntry p entry s).2 := by
  obtain ⟨audit, row, -, hrun⟩ := Database.createAuditEntry_eq (p := p) entry s
  rw [hrun]
  cases s.tape.fault (s.tick + 2) with
  | some message => exact ⟨.refl _, rfl⟩
  | none => exact ⟨{ AppState.Alike.refl s.app with }, rfl⟩

/-! ## Sessions and windows -/

theorem leaves_getOrCreateSession {sessionId : String} (hid : sessionId ∉ f.sessions)
    (agentId : Uuid) (principalId : Option Uuid) (s : Serving) :
    s.Leaves f (getOrCreateSession sessionId agentId principalId s).2 := by
  unfold getOrCreateSession SessionStore.getOrCreateSession
  cases s.app.sessionStore.sessions.lookup sessionId with
  | some session => exact ⟨{ AppState.Alike.refl s.app with }, rfl⟩
  | none =>
      refine ⟨{ AppState.Alike.refl s.app with session := fun key hkey => ?_ }, rfl⟩
      exact AList.lookup_insert_ne fun h => hid (h ▸ hkey)

theorem leaves_evalEngine {ctx : PolicyContext} (s : Serving)
    (rate : ∀ key ∈ f.rates, ¬ s.app.policyEngine.Counts s.app.sessionStore ctx key) :
    s.Leaves f (evalEngine ctx s).2 where
  app := { AppState.Alike.refl s.app with
    killedAgents := YamlEngine.killedAgents_evaluate
    session := fun key _ => congrArg (AList.lookup key) YamlEngine.sessions_evaluate
    rate := fun key hkey => YamlEngine.evaluate_frame (rate key hkey) }
  tape := rfl

theorem leaves_recordAction {sessionId : String} (hid : sessionId ∉ f.sessions)
    (event : TrajectoryEvent) (now : Instant) (s : Serving) :
    s.Leaves f (modifySessions (·.recordAction sessionId event now) s).2 where
  app := { AppState.Alike.refl s.app with
    session := fun key hkey => by
      have hne : key ≠ sessionId := fun h => hid (h ▸ hkey)
      exact lookup_modifyAt_of_ne hne _ _ }
  tape := rfl

/-! ## The calls -/

theorem leaves_enactDecision (ids : ∀ n, s.tape.uuid n ∉ f.ids) (caller : Caller)
    (req : AccessRequest) (eval : PolicyEvaluation) :
    s.Leaves f (enactDecision p caller req eval s).2 := by
  rw [enactDecision]
  cases eval.decision with
  | allow => exact leaves_grantAccess ids caller req eval
  | requireApproval approver reason =>
      refine leaves_bind (leaves_of_keeps
        (Database.keeps_findResourceByUri tickFree_still _).attempt _) fun found s₁ hfound => ?_
      have htape := (leaves_of_keeps (f := f)
        (Database.keeps_findResourceByUri tickFree_still req.resource).attempt s).tape
      rw [hfound] at htape
      have htape : s₁.tape = s.tape := htape
      refine leaves_bind (leaves_createApprovalRequest ?_ _ _ _ _ _ _) fun _ s₂ _ =>
        ⟨.refl _, rfl⟩
      rw [htape]
      exact ids
  | deny => exact ⟨.refl _, rfl⟩

theorem leaves_recordDecision {caller : Caller} (session : caller.sessionId ∉ f.sessions)
    (req : AccessRequest) (eval : PolicyEvaluation) (response : AccessResponse) (s : Serving) :
    s.Leaves f (recordDecision p caller req eval response s).2 := by
  apply leaves_bind (leaves_of_keeps (keeps_utcNow tickFree_still) _)
  intro timestamp s₁ _
  apply leaves_bind (leaves_of_keeps (keeps_utcNow tickFree_still) _)
  intro now s₂ _
  apply leaves_bind (leaves_recordAction session _ _ _)
  intro _ s₃ _
  exact leaves_bind (leaves_createAuditEntry _ _) fun _ s₄ _ => ⟨.refl _, rfl⟩

theorem leaves_resolveCaller (auth : Option Uuid)
    (session : Resolves p auth req s → req.sessionKey ∉ f.sessions) :
    s.Leaves f (resolveCaller p auth req s).2 := by
  apply leaves_bind (leaves_of_keeps (keeps_authenticatedAs auth _) _)
  intro _ s₀ hrun
  obtain ⟨hauth, rfl⟩ := authenticatedAs_eq_ok.mp hrun
  refine leaves_bind (leaves_of_keeps (Database.keeps_getAgent tickFree_still _) _)
    fun agent s₁ hagent => ?_
  refine leaves_bind (leaves_of_keeps (keeps_requestPrincipal tickFree_still agent req) _)
    fun principal s₂ hprincipal => ?_
  have hresolves : Resolves p auth req s := resolves_of_run (resolveCaller_eq_ok.mpr
    ⟨hauth, agent, s₁, principal.1, principal.2, s₂, _, hagent, hprincipal,
      getOrCreateSession_eq_ok.mpr ⟨rfl, rfl⟩, rfl⟩)
  refine leaves_bind (leaves_getOrCreateSession ?_ _ _ _) fun session s₃ _ => ⟨.refl _, rfl⟩
  rw [getAgent_id hagent]
  exact session hresolves

/-- A counted context of a found caller is a counted request. -/
theorem CallerFound.isCounted {caller : Caller} {s₁ : Serving} {key : String}
    (h : CallerFound p req s caller s₁)
    (alive : caller.agent.id ∉ s₁.app.sessionStore.killedAgents)
    (counts : s₁.app.policyEngine.Counts s₁.app.sessionStore (caller.context req) key) :
    key = Rule.rateLimitKey req.sessionKey req.action req.resource ∧
      req.IsCounted s.app (some (s.app.sessionStore.sessionFor req)) := by
  obtain ⟨rule, maxPerMinute, hmatch, htemporal, hlimit⟩ := counts
  have hsessionId : (caller.context req).sessionId = some req.sessionKey :=
    congrArg some h.sessionId
  have hkey := Rule.rateKey_of_limitOf hlimit
  rw [PolicyContext.rateKey, hsessionId] at hkey
  cases hkey
  obtain ⟨row, now, now', hrow, hagent⟩ := h.agent
  have htype : (caller.context req).agent.principalType = row.principalType := by
    rw [Caller.context, hagent]
    rfl
  rw [YamlEngine.firstMatch_eq_some_iff, htype, h.policyEngine] at hmatch
  rw [h.agentId, h.killedAgents] at alive
  refine ⟨rfl, alive, row, rule, hrow, hmatch, Rule.rateLimitPerMinute_of_limitOf hlimit, ?_⟩
  intro state hstate
  cases hstate
  exact h.sessionAllows_iff.mp
    ((Rule.checkTemporalConditions_eq_none hsessionId h.lookup).mp htemporal)

theorem leaves_requestAccess {auth : Option Uuid} (h : s.Spares p f (.requestAccess auth req)) :
    s.Leaves f (requestAccess p auth req s).2 := by
  refine leaves_bind (leaves_resolveCaller auth fun hresolves => (h hresolves).1)
    fun caller s₁ hcaller => ?_
  obtain ⟨hsession, hids, hrate⟩ := h (resolves_of_run hcaller)
  have hfound := resolveCaller_found hcaller
  split
  · exact ⟨.refl _, rfl⟩
  · apply leaves_bind ⟨.refl _, rfl⟩
    intro stopped s₁' hread
    cases hread
    split
    · exact ⟨.refl _, rfl⟩
    · rename_i hstopped
      have halive : caller.agent.id ∉ s₁.app.sessionStore.killedAgents := by
        simpa [SessionStore.isAgentKilled] using hstopped
      refine leaves_bind (leaves_evalEngine s₁ fun key hkey hcounts => ?_) fun eval s₂ heval => ?_
      · obtain ⟨rfl, hcounted⟩ := hfound.isCounted halive hcounts
        exact hrate hcounted hkey
      · have htape : s₂.tape = s.tape := by
          obtain ⟨-, rfl⟩ := evalEngine_eq_ok.mp heval
          exact hfound.tape
        refine leaves_bind (leaves_enactDecision ?_ caller req eval) fun response s₃ _ => ?_
        · rw [htape]
          exact hids
        · refine leaves_bind (leaves_recordDecision ?_ _ _ _ _) fun _ s₄ _ => ⟨.refl _, rfl⟩
          rw [hfound.sessionId]
          exact hsession

theorem leaves_checkAccess {auth : Option Uuid} (h : s.Spares p f (.check auth req)) :
    s.Leaves f (checkAccess p auth req s).2 := by
  apply leaves_bind (leaves_of_keeps (keeps_authenticatedAs auth _) _)
  intro _ s₀ hrun
  obtain ⟨hauth, rfl⟩ := authenticatedAs_eq_ok.mp hrun
  refine leaves_bind (leaves_of_keeps (Database.keeps_getAgent tickFree_still _) _)
    fun agent s₁ hagent => ?_
  obtain ⟨-, row, hrow, rfl, rfl⟩ := getAgent_eq_ok.mp hagent
  refine leaves_bind (leaves_of_keeps (keeps_ownerPrincipal tickFree_still _) _)
    fun principal s₂ hprincipal => ?_
  have happ : s₂.app = s.app :=
    congrArg Prod.fst ((keeps_ownerPrincipal tickFree_still _).eq hprincipal)
  apply leaves_bind ⟨.refl _, rfl⟩
  intro stopped s₂' hread
  cases hread
  split
  · exact ⟨.refl _, rfl⟩
  · rename_i hstopped
    dsimp only at hstopped
    rw [getAgent_id hagent, happ] at hstopped
    have halive : req.agentId ∉ s.app.sessionStore.killedAgents := by
      simpa [SessionStore.isAgentKilled] using hstopped
    refine leaves_bind (leaves_evalEngine s₂ fun key hkey hcounts => ?_) fun eval s₃ _ =>
      leaves_bind (leaves_createAuditEntry _ _) fun _ s₄ _ => ⟨.refl _, rfl⟩
    obtain ⟨rule, maxPerMinute, hmatch, htemporal, hlimit⟩ := hcounts
    obtain ⟨sessionId, hsession, rfl⟩ := Option.map_eq_some_iff.mp (Rule.rateKey_of_limitOf hlimit)
    rw [happ] at hmatch htemporal
    refine h hauth sessionId hsession ⟨halive, row, rule, hrow,
      YamlEngine.firstMatch_eq_some_iff.mp hmatch, Rule.rateLimitPerMinute_of_limitOf hlimit,
      fun state hstate => ?_⟩ hkey
    exact (Rule.checkTemporalConditions_eq_none hsession hstate).mp htemporal

end

/-! ## Runs -/

/-- The calls of `request_access` and of its dry run. -/
def Call.isAccess : Call → Bool
  | .requestAccess _ _ | .check _ _ => true
  | _ => false

/-- The sessions that an access call names. -/
def Call.sessionKeys : Call → Set String
  | .requestAccess _ req => {req.sessionKey}
  | .check _ req => {sessionId | req.context.bind (·.sessionId) = some sessionId}
  | _ => ∅

/-- The windows in which an access call may be counted. -/
def Call.rateKeys : Call → Set String
  | .requestAccess _ req => {Rule.rateLimitKey req.sessionKey req.action req.resource}
  | .check _ req => {key | ∃ sessionId, req.context.bind (·.sessionId) = some sessionId ∧
      key = Rule.rateLimitKey sessionId req.action req.resource}
  | _ => ∅

def Input.footprint (input : Input) : Footprint :=
  match input.event with
  | .call call => ⟨call.sessionKeys, call.rateKeys, Set.range input.tape.uuid⟩
  | .restart => ⟨∅, ∅, ∅⟩

/-- What the kept inputs of a run see together. -/
def footprintOf (kept : Input → Bool) (inputs : List Input) : Footprint where
  sessions := {key | ∃ input ∈ inputs, kept input = true ∧ key ∈ input.footprint.sessions}
  rates := {key | ∃ input ∈ inputs, kept input = true ∧ key ∈ input.footprint.rates}
  ids := {id | ∃ input ∈ inputs, kept input = true ∧ id ∈ input.footprint.ids}

/-- The decision in an answer, if it is one. -/
def answerDecision : Except Failure Reply → Option String
  | .ok (.access response) => some response.decision
  | .ok (.check response) => some response.decision
  | _ => none

def Input.isAccess (input : Input) : Bool :=
  match input.event with
  | .call call => call.isAccess
  | .restart => false

/-- The names under which an input writes are not in the footprint. -/
def World.Spares (p : Platform) (f : Footprint) (w : World) (input : Input) : Prop :=
  match input.event with
  | .call call => w.up = true → (w.serving input.tape).Spares p f call
  | .restart => False

structure World.Alike (f : Footprint) (w w' : World) : Prop where
  up : w.up = w'.up
  app : w.app.Alike f w'.app

section

variable {p : Platform} {f : Footprint} {w w' : World} {input : Input} {kept : Input → Bool}
  {inputs rest : List Input}

theorem World.Alike.footprintOf_tail (h : w.Alike (footprintOf kept (input :: rest)) w') :
    w.Alike (footprintOf kept rest) w' where
  up := h.up
  app := h.app.mono (fun _ ⟨next, hnext, hkey⟩ => ⟨next, List.mem_cons_of_mem _ hnext, hkey⟩)
    (fun _ ⟨next, hnext, hkey⟩ => ⟨next, List.mem_cons_of_mem _ hnext, hkey⟩)
    (fun _ ⟨next, hnext, hid⟩ => ⟨next, List.mem_cons_of_mem _ hnext, hid⟩)

theorem respects_serve {call : Call} (access : call.isAccess = true)
    (sessions : call.sessionKeys ⊆ f.sessions) (rates : call.rateKeys ⊆ f.rates) :
    (serve p call).Respects (Serving.Alike f) := by
  cases call with
  | requestAccess auth req =>
      exact (respects_requestAccess auth (sessions rfl) (rates rfl)).bind fun _ => .pure _
  | check auth req =>
      exact (respects_checkAccess auth fun sessionId hsession =>
        ⟨sessions hsession, rates ⟨sessionId, hsession, rfl⟩⟩).bind fun _ => .pure _
  | _ => cases access

theorem leaves_serve {call : Call} {s : Serving} (h : s.Spares p f call) :
    s.Leaves f (serve p call s).2 := by
  cases call with
  | requestAccess auth req =>
      exact leaves_bind (leaves_requestAccess h) fun _ _ _ => ⟨.refl _, rfl⟩
  | check auth req =>
      exact leaves_bind (leaves_checkAccess h) fun _ _ _ => ⟨.refl _, rfl⟩
  | _ => cases h

/-- Worlds that look alike to an access call answer it alike, and look alike afterwards. -/
theorem World.Alike.answer (h : w.Alike f w') (access : input.isAccess = true)
    (sessions : input.footprint.sessions ⊆ f.sessions)
    (rates : input.footprint.rates ⊆ f.rates) (ids : input.footprint.ids ⊆ f.ids) :
    w.answer p input = w'.answer p input ∧ (w.step p input).Alike f (w'.step p input) := by
  obtain ⟨event, arrival, tape⟩ := input
  cases event with
  | restart => cases access
  | call call =>
      have halike : (w.serving tape).Alike f (w'.serving tape) :=
        ⟨h.app, rfl, rfl, fun n => ids ⟨n, rfl⟩⟩
      obtain ⟨hanswer, hafter⟩ := respects_serve (p := p) access sessions rates _ _ halike
      simp only [World.answer, World.reply, World.step, h.up]
      cases w'.up with
      | true => exact ⟨hanswer, rfl, hafter.app⟩
      | false => exact ⟨rfl, rfl, h.app⟩

theorem World.Alike.step (h : w.Alike f w') (spares : w.Spares p f input) :
    (w.step p input).Alike f w' := by
  obtain ⟨event, arrival, tape⟩ := input
  cases event with
  | restart => cases spares
  | call call =>
      by_cases hup : w.up = true
      · have hleaves := leaves_serve (spares hup)
        simp only [World.step, if_pos hup]
        exact ⟨hup.symm.trans h.up, hleaves.app.trans h.app⟩
      · simp only [World.step, if_neg hup]
        exact ⟨h.up, h.app⟩

/-- Access calls that spare what later kept calls see can be deleted from a run: the
kept calls are answered as before. -/
theorem transcript_access (access : ∀ input ∈ inputs, input.isAccess = true)
    (spares : DroppedMeet (World.step p) kept
      (fun w input rest => w.Spares p (footprintOf kept rest) input) w inputs) :
    (transcript (World.step p) (World.answer p) w inputs).filter (fun answered => kept answered.1) =
      transcript (World.step p) (World.answer p) w (inputs.filter kept) := by
  let related (inputs : List Input) (w w' : World) : Prop :=
    (∀ input ∈ inputs, input.isAccess = true) ∧ w.Alike (footprintOf kept inputs) w'
  have hstart : related inputs w w := ⟨access, rfl, .refl _⟩
  refine transcript_filter related ?_ ?_ spares hstart
  · rintro input rest w w' hkept ⟨haccess, halike⟩
    obtain ⟨hanswer, hafter⟩ := halike.answer (haccess input (by simp))
      (fun key hkey => ⟨input, by simp, hkept, hkey⟩)
      (fun key hkey => ⟨input, by simp, hkept, hkey⟩) (fun id hid => ⟨input, by simp, hkept, hid⟩)
    exact ⟨hanswer, fun next hnext => haccess next (by simp [hnext]), hafter.footprintOf_tail⟩
  · rintro input rest w w' _ hspares ⟨haccess, halike⟩
    exact ⟨fun next hnext => haccess next (by simp [hnext]), halike.footprintOf_tail.step hspares⟩

end

end Patroclus
