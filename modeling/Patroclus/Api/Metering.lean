import Patroclus.Api.Interference
import Patroclus.Api.Meter
import Patroclus.Api.Server
import Patroclus.Foundation.Sharding

/-!
# Access calls as inputs of meters

A run of access calls of one agent, for one action and one resource, is a run of meters: each
session has a meter of its own, and a call is allowed if the meter of the session that it names
allows it. This needs calls that are served, whatever sessions they name: no statement of
theirs fails, and the ids that they draw are new and differ from those of other calls.
-/

namespace Patroclus

open Foundation

/-- A request for access at a time, with the tape of its steps. -/
structure AccessCall where
  auth : Option Uuid
  req : AccessRequest
  now : Instant
  tape : Tape
  clock : ∀ n, tape.now n = now

namespace AccessCall

/-- The request with a session id of the client's choice. -/
def request (call : AccessCall) (sessionId : String) : AccessRequest :=
  { call.req with context := some ⟨some sessionId⟩ }

def inSession (call : AccessCall) (sessionId : String) : Input :=
  ⟨.call (.requestAccess call.auth (call.request sessionId)), call.now, call.tape⟩

end AccessCall

/-- The answer allows a request. -/
def allows : Except Failure Reply → Bool
  | .ok (.access response) => response.decision == "allow"
  | _ => false

/-- How many requests of a run are allowed. -/
def World.allowed (p : Platform) : World → List Input → Nat
  | _, [] => 0
  | w, input :: rest => (allows (w.answer p input)).toNat + World.allowed p (w.step p input) rest

/-- The calls are of one agent for one action and one resource. -/
def Uniform (calls : List AccessCall) (agentId : Uuid) (action resource : String) : Prop :=
  ∀ call ∈ calls, call.req.agentId = agentId ∧ call.req.action = action ∧
    call.req.resource = resource

/-- Nothing outside the program fails: each call gets its caller, no statement of it fails, the
codec signs, and the dates that may be computed are in range. The drawn ids are new, and those
of different calls differ. -/
structure Served (p : Platform) (w : World) (calls : List AccessCall) : Prop where
  unfailing : ∀ call ∈ calls, Unfailing p (w.serving call.tape)
  resolves : ∀ call ∈ calls, Resolves p call.auth call.req (w.serving call.tape)
  expiry : ∀ call ∈ calls, (call.now.addSeconds (asI64 p.config.defaultTtlSeconds)).isSome
  deadline : ∀ call ∈ calls, (call.now.addSeconds (asI64 300)).isSome
  distinct : calls.Pairwise fun call later => ∀ m n, call.tape.uuid m ≠ later.tape.uuid n

namespace Meter

variable (app : AppState) (action : String) (meter : Meter) (call : AccessCall)

def next : Meter := meter.charge (app.firstRule call.req) action call.now

/-- The rule that comes first for the call allows it after what the meter has counted. -/
def allows : Bool :=
  (app.firstRule call.req).any fun rule =>
    rule.decision == "allow" && rule.allowsAfter action meter.calls && meter.hasRoom rule call.now

/-- The meter of a session, as a machine that accepts the calls which it allows. -/
def acceptor (app : AppState) (action : String) : Acceptor Meter AccessCall where
  start := .zero
  step meter call := meter.next app action call
  accepts meter call := meter.allows app action call
  count := Meter.calls
  count_start := rfl
  count_step _ _ := rfl

variable {app action meter call}

theorem allows_iff : meter.allows app action call = true ↔ ∃ rule,
    app.firstRule call.req = some rule ∧ rule.decision = "allow" ∧
      rule.allowsAfter action meter.calls = true ∧ meter.hasRoom rule call.now = true := by
  simp only [allows, Option.any_eq_true, Bool.and_eq_true, beq_iff_eq, and_assoc]

end Meter

section

variable {p : Platform} {w : World} {app : AppState} {call : AccessCall} {calls : List AccessCall}
  {agentId : Uuid} {action resource sessionId key : String} {meter : Meter} {n : Nat}
  {inputs : List Input}

/-! ## One call -/

theorem AccessCall.sessionKey_request (call : AccessCall) (sessionId : String) :
    (call.request sessionId).sessionKey = sessionId :=
  AccessRequest.sessionKey_of_named rfl

theorem AppState.killedAgents_congr {app' : AppState} (h : app.grounds = app'.grounds) :
    app.sessionStore.killedAgents = app'.sessionStore.killedAgents :=
  (Prod.mk.inj (Prod.mk.inj h).2).2

theorem World.firstRule_request (grounds : w.app.grounds = app.grounds) :
    w.app.firstRule (call.request sessionId) = app.firstRule call.req :=
  AppState.firstRule_congr grounds call.req

theorem World.app_step_inSession (up : w.up = true) : (w.step p (call.inSession sessionId)).app =
    (requestAccess p call.auth (call.request sessionId) (w.serving call.tape)).2.app := by
  have hevent : (call.inSession sessionId).event =
      .call (.requestAccess call.auth (call.request sessionId)) := rfl
  simp only [World.step, hevent, up, if_true]
  exact congrArg Serving.app (reply_state _ _ _)

theorem World.grounds_step_inSession :
    (w.step p (call.inSession sessionId)).app.grounds = w.app.grounds := by
  by_cases up : w.up = true
  · rw [World.app_step_inSession up]
    exact keeps_requestAccess_grounds (w.serving call.tape)
  · have hdown : w.step p (call.inSession sessionId) = { w with clock := call.now } := if_neg up
    rw [hdown]

/-- What an answer to a call says about the request. -/
theorem World.answer_inSession (up : w.up = true) {reply : Reply}
    (answered : w.answer p (call.inSession sessionId) = .ok reply) :
    ∃ response finish, requestAccess p call.auth (call.request sessionId) (w.serving call.tape) =
      (.ok response, finish) ∧ reply = .access response := by
  obtain ⟨finish, hserve⟩ := (World.reply_eq_ok up).mp answered
  obtain ⟨response, s, hrun, hpure⟩ := Action.bind_ok_iff.mp hserve
  cases hpure
  exact ⟨response, finish, hrun, rfl⟩

/-- A served call is answered, whatever session it names. -/
theorem Served.answers (served : Served p w (call :: calls)) (up : w.up = true)
    (sessionId : String) : (w.answer p (call.inSession sessionId)).isOk = true := by
  have hcall : call ∈ call :: calls := List.mem_cons_self
  have hresolves : Resolves p call.auth (call.request sessionId) (w.serving call.tape) :=
    ⟨(served.resolves call hcall).authenticated, (served.resolves call hcall).registered,
      (served.resolves call hcall).delegation⟩
  obtain ⟨response, finish, hrun⟩ := requestAccess_returns (served.unfailing call hcall) hresolves
    call.clock (fun _ _ _ => served.expiry call hcall) fun _ _ _ => served.deadline call hcall
  have hanswer : w.answer p (call.inSession sessionId) = .ok (.access response) := by
    refine (World.reply_eq_ok up).mpr ⟨finish, ?_⟩
    exact Action.bind_ok_iff.mpr ⟨response, finish, hrun, rfl⟩
  rw [hanswer]
  rfl

/-- What the later calls look for is as it was. -/
theorem Served.alike_step (served : Served p w (call :: calls)) (up : w.up = true)
    (sessionId : String) : (w.step p (call.inSession sessionId)).app.Alike
      ⟨∅, ∅, {id | ∃ later ∈ calls, ∃ n, later.tape.uuid n = id}⟩ w.app := by
  rw [World.app_step_inSession up]
  refine (leaves_requestAccess fun _ => ⟨Set.notMem_empty _, fun m => ?_,
    fun _ => Set.notMem_empty _⟩).app
  rintro ⟨later, hlater, n, hsame⟩
  exact (List.pairwise_cons.mp served.distinct).1 later hlater m n hsame.symm

theorem Served.step (served : Served p w (call :: calls)) (up : w.up = true) (sessionId : String) :
    Served p (w.step p (call.inSession sessionId)) calls := by
  have halike := served.alike_step up sessionId
  have hcalls (later : AccessCall) (hlater : later ∈ calls) : later ∈ call :: calls :=
    List.mem_cons_of_mem call hlater
  constructor
  · intro later hlater
    have hunfailing := served.unfailing later (hcalls later hlater)
    refine ⟨hunfailing.faults, fun n => ?_, fun n => ?_, hunfailing.signs⟩
    · exact (halike.tokenTaken _ ⟨later, hlater, n, rfl⟩).trans (hunfailing.freshToken n)
    · have hsame := congrArg Option.isSome (halike.approval _ ⟨later, hlater, n, rfl⟩)
      rw [List.isSome_find?, List.isSome_find?] at hsame
      exact hsame.trans (hunfailing.freshApproval n)
  · intro later hlater
    have hresolves := served.resolves later (hcalls later hlater)
    refine ⟨hresolves.authenticated, ?_, ?_⟩
    · show (w.step p (call.inSession sessionId)).app.db.agents.any _ = true
      rw [halike.agents]
      exact hresolves.registered
    · intro token htoken
      show ∃ claims, TokenVerifier.verify p (w.step p (call.inSession sessionId)).app.jtiStore
        _ _ _ _ = _
      rw [halike.jtiStore]
      exact hresolves.delegation token htoken
  · exact fun later hlater => served.expiry later (hcalls later hlater)
  · exact fun later hlater => served.deadline later (hcalls later hlater)
  · exact served.distinct.of_cons

/-! ## Meters -/

section

variable (up : w.up = true) (grounds : w.app.grounds = app.grounds)
  (alive : call.req.agentId ∉ app.sessionStore.killedAgents)
  (answered : (w.answer p (call.inSession sessionId)).isOk = true)

include up grounds alive answered

/-- An answered call is allowed exactly if the meter of its session allows it, and is charged
to this meter. -/
theorem World.step_metered
    (metered : w.app.sessionStore.Metered sessionId call.req.action call.req.resource meter) :
    (allows (w.answer p (call.inSession sessionId)) = true ↔
      meter.allows app call.req.action call = true) ∧
    (w.step p (call.inSession sessionId)).app.sessionStore.Metered sessionId call.req.action
      call.req.resource (meter.next app call.req.action call) := by
  cases hanswer : w.answer p (call.inSession sessionId) with
  | error e =>
      rw [hanswer] at answered
      cases answered
  | ok reply =>
      obtain ⟨response, finish, hrun, rfl⟩ := World.answer_inSession up hanswer
      rw [← AppState.killedAgents_congr grounds] at alive
      rw [← call.sessionKey_request sessionId] at metered
      have hallowed := allowed_iff_of_metered hrun call.clock alive metered
      have hcharged := metered_charge hrun call.clock alive metered
      rw [World.serving] at hallowed hcharged
      rw [World.firstRule_request grounds] at hallowed hcharged
      rw [call.sessionKey_request] at hcharged
      rw [World.app_step_inSession up, hrun, Meter.allows_iff]
      exact ⟨beq_iff_eq.trans hallowed, hcharged⟩

/-- An answered call leaves the meters of other sessions as they are. -/
theorem World.step_metered_of_ne
    (charged : w.app.sessionStore.ChargedAt sessionId call.req.action n) (other : key ≠ sessionId)
    (metered : w.app.sessionStore.Metered key call.req.action call.req.resource meter) :
    (w.step p (call.inSession sessionId)).app.sessionStore.Metered key call.req.action
      call.req.resource meter := by
  cases hanswer : w.answer p (call.inSession sessionId) with
  | error e =>
      rw [hanswer] at answered
      cases answered
  | ok reply =>
      obtain ⟨response, finish, hrun, -⟩ := World.answer_inSession up hanswer
      rw [← AppState.killedAgents_congr grounds] at alive
      rw [← call.sessionKey_request sessionId] at charged other
      have hleft := metered_of_ne hrun alive charged other metered
      rw [World.app_step_inSession up, hrun]
      exact hleft

end

/-- Calls of a living agent that are still to come, on a server whose sessions have meters. -/
structure InMeters (p : Platform) (app : AppState) (agentId : Uuid) (action resource : String)
    (w : World) (meters : String → Meter) (calls : List AccessCall) : Prop where
  up : w.up = true
  grounds : w.app.grounds = app.grounds
  alive : agentId ∉ app.sessionStore.killedAgents
  uniform : Uniform calls agentId action resource
  metered : ∀ key, w.app.sessionStore.Metered key action resource (meters key)
  served : Served p w calls

variable {meters : String → Meter} {placed : List (AccessCall × String)}

theorem InMeters.step (h : InMeters p app agentId action resource w meters (call :: calls))
    (sessionId : String) :
    allows (w.answer p (call.inSession sessionId)) =
      (meters sessionId).allows app action call ∧
    InMeters p app agentId action resource (w.step p (call.inSession sessionId))
      ((Meter.acceptor app action).place meters (call, sessionId)) calls := by
  obtain ⟨rfl, rfl, rfl⟩ := h.uniform call List.mem_cons_self
  have hanswered := h.served.answers h.up sessionId
  have hmetered := h.metered sessionId
  obtain ⟨hallows, hcharged⟩ := World.step_metered h.up h.grounds h.alive hanswered hmetered
  refine ⟨Bool.eq_iff_iff.mpr hallows, {
    up := World.up_step_call rfl h.up
    grounds := World.grounds_step_inSession.trans h.grounds
    alive := h.alive
    uniform := fun next hnext => h.uniform next (List.mem_cons_of_mem call hnext)
    metered := fun key => ?_
    served := h.served.step h.up sessionId }⟩
  by_cases hkey : key = sessionId
  · rw [hkey, Acceptor.place_self]
    exact hcharged
  · rw [Acceptor.place_of_ne hkey]
    exact World.step_metered_of_ne h.up h.grounds h.alive hanswered hmetered.session hkey
      (h.metered key)

end

end Patroclus
