import Patroclus.Crate.Uuid
import Patroclus.Crate.Chrono

/-!
# Agents and principals
-/

namespace Patroclus

inductive AgentType where
  | service
  | delegated
  | autonomous
deriving DecidableEq, Repr

/-- The text a policy rule and the `agents` table use for an agent type. -/
def AgentType.name : AgentType → String
  | service => "service"
  | delegated => "delegated"
  | autonomous => "autonomous"

inductive AgentStatus where
  | active
  | suspended
  | decommissioned
deriving DecidableEq, Repr

structure Agent where
  id : Uuid
  name : String
  principalType : AgentType
  publicKey : Option String
  did : Option String
  ownerId : Option Uuid
  status : AgentStatus
  clientKeyHash : Option String
  createdAt : Instant
  updatedAt : Instant
deriving DecidableEq, Repr

structure Principal where
  id : Uuid
  externalId : String
  idpProvider : String
  email : String
  displayName : String
  createdAt : Instant
deriving DecidableEq, Repr

structure CreateAgentRequest where
  name : String
  principalType : AgentType
  publicKey : Option String
  did : Option String
  ownerId : Option Uuid
deriving DecidableEq, Repr

structure CreatePrincipalRequest where
  externalId : String
  idpProvider : String
  email : String
  displayName : String
deriving DecidableEq, Repr

/-- `format!("agent:{}", id)`: the audience of a grant and the name of its actor. -/
def agentAudience (id : Uuid) : String := "agent:" ++ id.toString

end Patroclus
