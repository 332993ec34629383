import Patroclus.Db.Database
import Patroclus.Token.Verifier
import Patroclus.Foundation.Hex

/-!
# The admin endpoints

Agents, principals, resources, policies, the audit log, token revocation,
sessions and the emergency stop.
-/

namespace Patroclus

open Foundation

section

variable (p : Platform)

/-! ## Policies -/

/-- `AppState::build_engine_async`: the engine of the active policy. -/
def buildEngine : Handler YamlEngine := do
  let yaml ← Database.loadActivePolicyYaml
  if p.config.policyEngine = "yaml" then
    if yaml.isEmpty then return YamlEngine.new
    else
      match p.parseYaml yaml with
      | .ok rules => return ⟨rules⟩
      | .error message => raise (.config ("YAML policy parse error: " ++ message))
  else
    raise (.notImplemented ("policy engine '" ++ p.config.policyEngine ++ "' not yet implemented"))

def reloadPolicy : Handler Unit := do
  let engine ← buildEngine p
  modifyApp fun app => { app with policyEngine := engine }

/-- A failed reload is reported as a configuration error. -/
def createPolicy (name engine definition : String) : Handler Unit := do
  Database.createPolicy p name engine definition
  match ← (reloadPolicy p).attempt with
  | .ok _ => return ()
  | .error (.error e) => raise (.config e.toString)
  | .error failure => Action.fail failure

/-! ## Agents and their keys -/

/-- `hash_client_key` -/
def hashClientKey (raw : String) : String := String.ofList (hexBytes (p.sha256 (utf8 raw)))

/-- A fresh key; only its hash is stored. -/
def provisionClientKey (id : Uuid) : Handler String := do
  let _ ← Database.getAgent p id
  let rawKey := "pat_" ++ String.ofList (hexBytes (← randomBytes))
  Database.setAgentClientKeyHash p id (hashClientKey p rawKey)
  return rawKey

/-! ## Revocation and the emergency stop -/

def revokeTokenByJti (jti : String) : Handler Unit := do
  Database.revokeToken jti
  revokeJti jti

/-- Stops the agent in memory, then revokes its tokens in the database. -/
def killAgent (id : Uuid) : Handler Nat := do
  modifySessions (·.killAgent id)
  let killed ← Action.read fun s =>
    (s.app.sessionStore.listSessions.filter fun session =>
      session.agentId == id && session.killed).length
  let _ ← Database.revokeAgentTokens id
  return killed

def restoreAgent (id : Uuid) : Handler Unit := modifySessions (·.restoreAgent id)

/-! ## Sessions -/

def listSessions : Handler (List SessionState) :=
  Action.read fun s => s.app.sessionStore.listSessions

def killSession (id : String) : Handler Bool := fun s =>
  let (killed, sessionStore) := s.app.sessionStore.killSession id
  (.ok killed, s.withApp fun app => { app with sessionStore })

/-- Returns the session's total, or the amount itself when there is no such session. -/
def recordSpend (id : Uuid) (amount : F64) (sessionId : Option String) : Handler F64 := do
  let sessionId := sessionId.getD ("agent-" ++ id.toString ++ "-default")
  modifySessions (·.recordSpend sessionId amount)
  let session ← Action.read fun s => s.app.sessionStore.getSession sessionId
  return (session.map (·.cumulativeSpend)).getD amount

end

end Patroclus
