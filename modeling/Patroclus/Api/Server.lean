import Patroclus.Api.Agent
import Patroclus.Api.Principal
import Patroclus.Api.Admin

/-!
# The server and its runs

`serve` answers one call. A `World` is the server between two calls, with its
database, the ledger of signed tokens and the arrival time of the last input. A
run feeds it inputs: calls of any client in any order, and restarts over the same
database and keys, which lose everything that was only in memory.
-/

namespace Patroclus

open Foundation

/-- The calls of the agent, principal, admin and session endpoints. Agent calls
carry the agent that the middleware has authenticated. -/
inductive Call where
  | requestAccess (auth : Option Uuid) (req : AccessRequest)
  | check (auth : Option Uuid) (req : AccessRequest)
  | delegate (auth : Option Uuid) (req : DelegateRequest)
  | approvalStatus (auth : Option Uuid) (id : Uuid)
  | principalDelegate (req : PrincipalDelegateRequest)
  | listPrincipalGrants
  | revokeGrant (id : Uuid)
  | listPendingApprovals
  | approveRequest (id : Uuid) (req : ApproveRequest)
  | denyRequest (id : Uuid) (req : ApproveRequest)
  | createAgent (req : CreateAgentRequest)
  | listAgents
  | getAgent (id : Uuid)
  | provisionClientKey (id : Uuid)
  | createPrincipal (req : CreatePrincipalRequest)
  | createResource (req : Database.CreateResourceRequest)
  | listResources
  | createPolicy (name engine definition : String)
  | listPolicies
  | listAudit
  | revokeToken (jti : String)
  | listSessions
  | killSession (id : String)
  | killAgent (id : Uuid)
  | restoreAgent (id : Uuid)
  | recordSpend (id : Uuid) (amount : F64) (sessionId : Option String)

inductive Reply where
  | access (response : AccessResponse)
  | check (response : CheckResponse)
  | delegation (response : DelegateResponse)
  | approval (request : Database.ApprovalRequest)
  | grant (response : PrincipalDelegateResponse)
  | grants (grants : List Database.Grant)
  | revokedGrants (ids : List Uuid)
  | approvals (requests : List Database.ApprovalRequest)
  | agent (agent : Agent)
  | agents (agents : List Agent)
  | clientKey (rawKey : String)
  | principal (principal : Principal)
  | resource (resource : Database.Resource)
  | resources (resources : List Database.Resource)
  | policyCreated
  | policies (rows : List PolicyRow)
  | audit (entries : List AuditEntry)
  | tokenRevoked (jti : String)
  | sessions (sessions : List SessionState)
  | sessionKilled (killed : Bool)
  | agentKilled (sessionsKilled : Nat)
  | agentRestored
  | spend (cumulative : F64)

section

variable (p : Platform)

def serve : Call → Handler Reply
  | .requestAccess auth req => do return .access (← requestAccess p auth req)
  | .check auth req => do return .check (← checkAccess p auth req)
  | .delegate auth req => do return .delegation (← delegate p auth req)
  | .approvalStatus auth id => do return .approval (← approvalStatus p auth id)
  | .principalDelegate req => do return .grant (← principalDelegate p req)
  | .listPrincipalGrants => do return .grants (← listPrincipalGrants p)
  | .revokeGrant id => do return .revokedGrants (← revokeGrant p id)
  | .listPendingApprovals => do return .approvals (← listPendingApprovals p)
  | .approveRequest id req => do return .approval (← approveRequest p id req)
  | .denyRequest id req => do return .approval (← denyRequest p id req)
  | .createAgent req => do return .agent (← Database.createAgent p req)
  | .listAgents => do return .agents (← Database.listAgents p)
  | .getAgent id => do return .agent (← Database.getAgent p id)
  | .provisionClientKey id => do return .clientKey (← provisionClientKey p id)
  | .createPrincipal req => do return .principal (← Database.createPrincipal p req)
  | .createResource req => do return .resource (← Database.createResource p req)
  | .listResources => do return .resources (← Database.listResources p)
  | .createPolicy name engine definition => do
      createPolicy p name engine definition
      return .policyCreated
  | .listPolicies => do return .policies (← Database.listPolicies)
  | .listAudit => do return .audit (← Database.listAuditEntries p 100)
  | .revokeToken jti => do
      revokeTokenByJti jti
      return .tokenRevoked jti
  | .listSessions => do return .sessions (← listSessions)
  | .killSession id => do return .sessionKilled (← killSession id)
  | .killAgent id => do return .agentKilled (← killAgent id)
  | .restoreAgent id => do
      restoreAgent id
      return .agentRestored
  | .recordSpend id amount sessionId => do return .spend (← recordSpend id amount sessionId)

/-- The in-memory state with which a process begins. -/
def freshMemory (app : AppState) : AppState :=
  { db := app.db, policyEngine := YamlEngine.new, jtiStore := ∅, sessionStore := .new }

/-- `AppState::new` over an existing database. -/
def startUp : Handler Unit := do
  modifyApp freshMemory
  Database.createDefaultPolicy p
  let engine ← buildEngine p
  modifyApp fun app => { app with policyEngine := engine }

/-- The server between two inputs. A server whose start has failed is down. -/
structure World where
  app : AppState
  ledger : List Minted
  up : Bool
  clock : Instant

inductive Event where
  | call (call : Call)
  | restart

/-- An event, its arrival time and the tape of its steps. -/
structure Input where
  event : Event
  arrival : Instant
  tape : Tape

namespace World

/-- The state in which the handler of an input starts. -/
def serving (w : World) (tape : Tape) : Serving := ⟨w.app, w.ledger, tape, 0⟩

/-- The answer to a call. -/
def reply (w : World) (call : Call) (tape : Tape) : Except Failure Reply :=
  if w.up then (serve p call (w.serving tape)).1 else .error .unreachable

/-- The answer to an input; a restart answers nobody. -/
def answer (w : World) (input : Input) : Except Failure Reply :=
  match input.event with
  | .call call => w.reply p call input.tape
  | .restart => .error .unreachable

def step (w : World) (input : Input) : World :=
  match input.event with
  | .call call =>
      if w.up then
        let finish := (serve p call (w.serving input.tape)).2
        ⟨finish.app, finish.ledger, true, input.arrival⟩
      else { w with clock := input.arrival }
  | .restart =>
      let (outcome, finish) := startUp p (w.serving input.tape)
      ⟨finish.app, finish.ledger, outcome.isOk, input.arrival⟩

/-- The world after a run. -/
def run (w : World) (inputs : List Input) : World := inputs.foldl (step p) w

end World

/-- A database that has never been used; nothing is signed and no server runs. -/
def initialWorld : World :=
  ⟨⟨Db.empty, YamlEngine.new, ∅, .new⟩, [], false, 0⟩

end

/-! ## Calls to a running server -/

section

variable {p : Platform} {w : World} {input : Input} {call : Call}

theorem World.up_step_call (event : input.event = .call call) (up : w.up = true) :
    (w.step p input).up = true := by
  simp only [World.step, event, up, if_true]

/-- Calls do not stop the server. -/
theorem World.up_run {inputs : List Input} (up : w.up = true)
    (calls : ∀ input ∈ inputs, ∃ call, input.event = .call call) : (w.run p inputs).up = true := by
  induction inputs generalizing w with
  | nil => exact up
  | cons input inputs ih =>
      obtain ⟨call, hevent⟩ := calls input List.mem_cons_self
      exact ih (World.up_step_call hevent up) fun next hnext =>
        calls next (List.mem_cons_of_mem _ hnext)

theorem World.reply_eq_ok {reply : Reply} {tape : Tape} (up : w.up = true) :
    w.reply p call tape = .ok reply ↔
      ∃ finish, serve p call (w.serving tape) = (.ok reply, finish) := by
  rw [World.reply, if_pos up]
  constructor
  · exact fun h => ⟨_, Prod.ext h rfl⟩
  · rintro ⟨finish, h⟩
    rw [h]

theorem World.answer_call (event : input.event = .call call) :
    w.answer p input = w.reply p call input.tape := by
  simp only [World.answer, event]

end

/-! ## Concrete runs -/

/-- A hundred seconds after the epoch. Readings of the clock are at least a minute, the leeway
that is subtracted from them when a token is verified. -/
def opening : Instant := 100 * 1000000000

/-- An event whose handler runs on a steady tape. -/
def Input.steady (event : Event) (now : Instant) (firstId : Nat) : Input :=
  ⟨event, now, .steady now firstId⟩

/-- An event whose handler draws one id. -/
def Input.drawing (id : Uuid) (event : Event) : Input :=
  ⟨event, opening, { Tape.steady opening 0 with uuid := fun _ => id }⟩

/-- The start of a fresh server, a principal with id 200 and its agent with id 300. -/
def enrolment : List Input := [
  .steady .restart opening 100,
  .steady (.call (.createPrincipal ⟨"alice", "idp", "alice@corp", "Alice"⟩)) opening 200,
  .steady (.call (.createAgent ⟨"bot", .delegated, none, none, some ⟨200⟩⟩)) opening 300]

/-- A root grant for that agent; the grant's id is 406. -/
def granting : Input :=
  .steady (.call (.principalDelegate ⟨⟨300⟩, ["read"], none, 600⟩)) opening 400

def rootClaims : AgentClaims where
  iss := "patroclus"
  sub := "user:alice@corp"
  act := ⟨agentAudience ⟨300⟩, 0, none⟩
  scope := "read"
  aud := agentAudience ⟨300⟩
  exp := 700
  iat := 100
  jti := (⟨410⟩ : Uuid).toString
  constraints := none
  cnf := none

/-- The agent delegates its root grant to itself. -/
def delegating : Call :=
  .delegate (some ⟨300⟩) ⟨Jwt.tableToken rootClaims, ⟨300⟩, ["read"], 60⟩

def childClaims : AgentClaims :=
  { rootClaims with
    act := ⟨agentAudience ⟨300⟩, 1, some [⟨"user:alice@corp", agentAudience ⟨300⟩⟩]⟩
    exp := 160
    jti := (⟨505⟩ : Uuid).toString }

/-- A policy that lets everyone do everything. -/
def allowAll : String := "- name: allow-all\n  decision: allow\n  reason: test\n"

def permitting : Input := .steady (.call (.createPolicy "open" "yaml" allowAll)) opening 350

/-- A platform that can sign the root grant and its child, under the default policy. -/
def delegationPlatform : Platform :=
  .concrete (Jwt.ofTable [rootClaims, childClaims] (by decide)) (parseKnown denyByDefault [])

/-- A request for reading the database. -/
def readDatabase : AccessRequest := ⟨⟨300⟩, "read", "db", ["read"], none, none⟩

/-- The claims that are signed for it. -/
def readClaims (jti : Uuid) : AgentClaims where
  iss := "patroclus"
  sub := agentAudience ⟨300⟩
  act := ⟨agentAudience ⟨300⟩, 0, none⟩
  scope := "read"
  aud := "db"
  exp := 1000
  iat := 100
  jti := jti.toString
  constraints := none
  cnf := none

/-- A platform that can sign two tokens for reading. -/
def readPlatform : Platform :=
  .concrete (Jwt.ofTable [readClaims ⟨506⟩, readClaims ⟨606⟩] (by decide))
    (parseKnown denyByDefault [])

/-- A server with one principal and its agent. -/
def enrolledWorld : World := initialWorld.run delegationPlatform enrolment

def registeredAgent : AgentRow where
  id := ⟨300⟩
  name := "agent"
  principalType := .autonomous
  publicKey := none
  did := none
  ownerId := none
  status := .active
  clientKeyHash := none
  createdAt := "1970-01-01T00:01:40+00:00"
  updatedAt := "1970-01-01T00:01:40+00:00"

/-- A server with one agent, under the given rules. -/
def ruledWorld (rules : List Rule) : World where
  app := ⟨{ Db.empty with agents := [registeredAgent] }, ⟨rules⟩, ∅, .new⟩
  ledger := []
  up := true
  clock := 0

end Patroclus
