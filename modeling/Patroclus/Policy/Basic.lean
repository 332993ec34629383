import Patroclus.Identity
import Patroclus.Crate.Json

/-!
# Policy decisions

The vocabulary that the policy engine shares with the session store and the
request handlers: decisions, the trajectory of a session, the context of one
evaluation and its result.
-/

namespace Patroclus

inductive Decision where
  | allow
  | deny
  | requireApproval (approverId : Option Uuid) (reason : String)
deriving DecidableEq, Repr

/-- The word for a decision in responses, metrics and audit rows. -/
def Decision.name : Decision → String
  | allow => "allow"
  | deny => "deny"
  | requireApproval _ _ => "require_approval"

theorem Decision.name_eq_allow {decision : Decision} : decision.name = "allow" ↔
    decision = .allow := by
  cases decision <;> simp [name]

structure TrajectoryEvent where
  action : String
  resource : String
  decision : Decision
  timestamp : Instant
deriving DecidableEq, Repr

structure PolicyContext where
  agent : Agent
  principal : Option Principal
  action : String
  resource : String
  requestedScopes : List String
  sessionId : Option String
  trajectory : List TrajectoryEvent

structure Constraint where
  key : String
  value : Json
deriving DecidableEq, Repr

structure PolicyEvaluation where
  decision : Decision
  approvedScopes : List String
  reason : String
  constraints : List Constraint
deriving DecidableEq, Repr

end Patroclus
