import Patroclus.Foundation.Table
import Patroclus.Policy.Basic
import Patroclus.Errors
import Patroclus.Crate.Chrono
import Mathlib.Data.Finset.Basic

/-!
# Sessions, rate limits and the emergency stop

The in-memory store beside the database. Sessions and rate-limit windows are
maps by text key; the emergency stop is a set of agents, which a restart loses
with the rest. Operations that read the clock take the reading as an argument.
-/

namespace Patroclus

open Foundation

structure SessionState where
  sessionId : String
  agentId : Uuid
  principalId : Option Uuid
  createdAt : Instant
  lastActivity : Instant
  trajectory : List TrajectoryEvent
  actionsCount : Nat
  spendTotal : F64
  tokensUsed : Nat
  trustLevel : F64
  killed : Bool
deriving DecidableEq, Repr

namespace SessionState

def new (sessionId : String) (agentId : Uuid) (principalId : Option Uuid) (now : Instant) :
    SessionState where
  sessionId := sessionId
  agentId := agentId
  principalId := principalId
  createdAt := now
  lastActivity := now
  trajectory := []
  actionsCount := 0
  spendTotal := 0
  tokensUsed := 0
  trustLevel := 1
  killed := false

/-- The trajectory keeps its latest thousand events. -/
def recordAction (event : TrajectoryEvent) (now : Instant) (s : SessionState) : SessionState :=
  let trajectory := s.trajectory ++ [event]
  { s with
    lastActivity := now
    actionsCount := s.actionsCount + 1
    trajectory :=
      if trajectory.length > 1000 then trajectory.drop (trajectory.length - 1000) else trajectory }

def recordSpend (amount : F64) (s : SessionState) : SessionState :=
  { s with spendTotal := s.spendTotal.add amount }

def minutesSinceLastActivity (now : Instant) (s : SessionState) : Int :=
  (now.secondsSince s.lastActivity).tdiv 60

/-- `none` is the panic of a division by zero. -/
def applyTrustDecay (decayThresholdMinutes : Int) (decayRate : F64) (now : Instant)
    (s : SessionState) : Option SessionState :=
  let idleMinutes := s.minutesSinceLastActivity now
  if idleMinutes > decayThresholdMinutes then
    if decayThresholdMinutes = 0 then none
    else
      let decayPeriods := (idleMinutes - decayThresholdMinutes).tdiv decayThresholdMinutes
      some { s with
        trustLevel := (F64.sub 1 ((F64.ofInt decayPeriods).mul decayRate)).max 0 }
  else some s

def isAllowedByTrust (s : SessionState) (minTrust : F64) : Bool := s.trustLevel.ge minTrust

def cumulativeSpend (s : SessionState) : F64 := s.spendTotal

end SessionState

structure RateLimitState where
  windowStart : Instant
  count : Nat
deriving DecidableEq, Repr

structure SessionStore where
  sessions : AList fun _ : String => SessionState
  rateLimits : AList fun _ : String => RateLimitState
  killedAgents : Finset Uuid

namespace SessionStore

def new : SessionStore := ⟨∅, ∅, ∅⟩

def killAgent (agentId : Uuid) (store : SessionStore) : SessionStore :=
  { store with
    killedAgents := insert agentId store.killedAgents
    sessions := mapValues
      (fun s => if s.agentId = agentId then { s with killed := true } else s) store.sessions }

def isAgentKilled (store : SessionStore) (agentId : Uuid) : Bool :=
  decide (agentId ∈ store.killedAgents)

def restoreAgent (agentId : Uuid) (store : SessionStore) : SessionStore :=
  { store with
    killedAgents := store.killedAgents.erase agentId
    sessions := mapValues
      (fun s => if s.agentId = agentId then { s with killed := false } else s) store.sessions }

def getOrCreateSession (sessionId : String) (agentId : Uuid) (principalId : Option Uuid)
    (now : Instant) (store : SessionStore) : SessionState × SessionStore :=
  match store.sessions.lookup sessionId with
  | some session => (session, store)
  | none =>
      let session := SessionState.new sessionId agentId principalId now
      (session, { store with sessions := store.sessions.insert sessionId session })

def getSession (store : SessionStore) (sessionId : String) : Option SessionState :=
  store.sessions.lookup sessionId

def recordAction (sessionId : String) (event : TrajectoryEvent) (now : Instant)
    (store : SessionStore) : SessionStore :=
  { store with sessions := modifyAt sessionId (·.recordAction event now) store.sessions }

def recordSpend (sessionId : String) (amount : F64) (store : SessionStore) : SessionStore :=
  { store with sessions := modifyAt sessionId (·.recordSpend amount) store.sessions }

/-- `true` when there was a session to kill. -/
def killSession (sessionId : String) (store : SessionStore) : Bool × SessionStore :=
  ((store.sessions.lookup sessionId).isSome,
    { store with
      sessions := modifyAt sessionId (fun s => { s with killed := true }) store.sessions })

/-- One minute, in nanoseconds. -/
def window : Int := 60 * 1000000000

/-- A fixed window per key: it restarts once it is older than a minute, and
calls beyond the limit are counted as well as refused. The first call of a key
is not compared with the limit. -/
def checkRateLimit (key : String) (maxPerMinute : Nat) (now : Instant) (store : SessionStore) :
    Except PatroclusError Unit × SessionStore :=
  let put (state : RateLimitState) : SessionStore :=
    { store with rateLimits := store.rateLimits.insert key state }
  match store.rateLimits.lookup key with
  | some state =>
      if now - state.windowStart > window then (.ok (), put ⟨now, 1⟩)
      else
        let count := state.count + 1
        if count > maxPerMinute then
          (.error (.policyDenied ("Rate limit exceeded for " ++ key ++ " (" ++ toString count ++
            " calls/min, limit " ++ toString maxPerMinute ++ ")")), put { state with count })
        else (.ok (), put { state with count })
  | none => (.ok (), put ⟨now, 1⟩)

/-- Each session reads the clock for itself; a call that panics leaves it as it was. -/
def applyTrustDecayAll (decayThresholdMinutes : Int) (decayRate : F64) (now : String → Instant)
    (store : SessionStore) : SessionStore :=
  { store with
    sessions := mapValues (fun s => (s.applyTrustDecay decayThresholdMinutes decayRate
      (now s.sessionId)).getD s) store.sessions }

def listSessions (store : SessionStore) : List SessionState :=
  store.sessions.entries.map (·.2)

@[simp] theorem killedAgents_killAgent (agentId : Uuid) (store : SessionStore) :
    (store.killAgent agentId).killedAgents = insert agentId store.killedAgents := rfl

@[simp] theorem killedAgents_restoreAgent (agentId : Uuid) (store : SessionStore) :
    (store.restoreAgent agentId).killedAgents = store.killedAgents.erase agentId := rfl

@[simp] theorem killedAgents_recordAction (sessionId : String) (event : TrajectoryEvent)
    (now : Instant) (store : SessionStore) :
    (store.recordAction sessionId event now).killedAgents = store.killedAgents := rfl

@[simp] theorem killedAgents_recordSpend (sessionId : String) (amount : F64)
    (store : SessionStore) : (store.recordSpend sessionId amount).killedAgents =
      store.killedAgents := rfl

@[simp] theorem killedAgents_killSession (sessionId : String) (store : SessionStore) :
    (store.killSession sessionId).2.killedAgents = store.killedAgents := rfl

@[simp] theorem killedAgents_getOrCreateSession (sessionId : String) (agentId : Uuid)
    (principalId : Option Uuid) (now : Instant) (store : SessionStore) :
    (store.getOrCreateSession sessionId agentId principalId now).2.killedAgents =
      store.killedAgents := by
  rw [getOrCreateSession]
  split <;> rfl

@[simp] theorem killedAgents_checkRateLimit (key : String) (maxPerMinute : Nat) (now : Instant)
    (store : SessionStore) :
    (store.checkRateLimit key maxPerMinute now).2.killedAgents = store.killedAgents := by
  rw [checkRateLimit]
  split
  · split
    · rfl
    · dsimp only
      split <;> rfl
  · rfl

/-- The session a caller works with is afterwards the stored one. -/
theorem lookup_getOrCreateSession (sessionId : String) (agentId : Uuid)
    (principalId : Option Uuid) (now : Instant) (store : SessionStore) :
    (store.getOrCreateSession sessionId agentId principalId now).2.sessions.lookup sessionId =
      some (store.getOrCreateSession sessionId agentId principalId now).1 := by
  rw [getOrCreateSession]
  split
  · assumption
  · exact AList.lookup_insert _

end SessionStore

end Patroclus
