import Patroclus.Policy.Basic

/-!
# Requests and responses of the agent-facing endpoints
-/

namespace Patroclus

structure RequestContext where
  sessionId : Option String
deriving DecidableEq, Repr

structure AccessRequest where
  agentId : Uuid
  action : String
  resource : String
  requestedScopes : List String
  delegationToken : Option String
  context : Option RequestContext
deriving DecidableEq, Repr

structure IssuedTokenInfo where
  jwt : String
  expiresAt : Instant
  scopes : List String
  jti : String
deriving DecidableEq, Repr

structure ApprovalInfo where
  requestId : Uuid
  status : String
deriving DecidableEq, Repr

structure AccessResponse where
  decision : String
  token : Option IssuedTokenInfo
  approval : Option ApprovalInfo
  reason : String
  approvedScopes : List String
deriving DecidableEq, Repr

structure CheckResponse where
  allowed : Bool
  decision : String
  approvedScopes : List String
  reason : String
deriving DecidableEq, Repr

structure DelegateRequest where
  parentGrantToken : String
  subAgentId : Uuid
  scopes : List String
  expiresInSeconds : Nat
deriving DecidableEq, Repr

structure DelegateResponse where
  delegatedToken : String
  expiresAt : Instant
  scopes : List String
deriving DecidableEq, Repr

namespace AccessResponse

/-- `From<PolicyEvaluation>`: an approval answer starts with the nil id. -/
def ofEvaluation (eval : PolicyEvaluation) : AccessResponse where
  decision := eval.decision.name
  token := none
  approval :=
    match eval.decision with
    | .requireApproval _ _ => some ⟨Uuid.nil, "pending"⟩
    | _ => none
  reason := eval.reason
  approvedScopes := eval.approvedScopes

def deny (reason : String) : AccessResponse := ⟨"deny", none, none, reason, []⟩

end AccessResponse

end Patroclus
