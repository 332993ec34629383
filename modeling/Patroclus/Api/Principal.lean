import Patroclus.Db.Database
import Patroclus.Token.Issuer

/-!
# The principal-facing endpoints
-/

namespace Patroclus

open Foundation

section

variable (p : Platform)

structure PrincipalDelegateRequest where
  agentId : Uuid
  scopes : List String
  constraints : Option Json
  expiresInSeconds : Nat
deriving DecidableEq, Repr

structure PrincipalDelegateResponse where
  grantId : Uuid
  delegationToken : String
  scopes : List String
  expiresAt : Instant
deriving DecidableEq, Repr

def grantParams (principal : Principal) (agent : Agent) (req : PrincipalDelegateRequest) :
    IssueTokenParams where
  issuer := p.config.tokenIssuer
  subject := "user:" ++ principal.email
  agentId := agentAudience agent.id
  scopes := req.scopes
  audience := agentAudience agent.id
  ttlSeconds := min req.expiresInSeconds p.config.maxTtlSeconds
  delegationDepth := 0
  delegationChain := none
  constraints := req.constraints

def principalDelegate (req : PrincipalDelegateRequest) : Handler PrincipalDelegateResponse := do
  let agent ← Database.getAgent p req.agentId
  match agent.ownerId with
  | none => raise (.agentNotFound "agent has no owner principal")
  | some principalId =>
      let principal ← Database.getPrincipal p principalId
      let expiresAt ← orPanic ((← utcNow).addSeconds (asI64 req.expiresInSeconds))
      let grantId ← Database.createGrant p agent.id principalId none req.scopes req.constraints
        expiresAt
      let (jwt, jti) ← issue p (.principalDelegate grantId) (grantParams p principal agent req)
      Database.recordToken p jti (some grantId) agent.id req.scopes (agentAudience agent.id)
        expiresAt
      return ⟨grantId, jwt, req.scopes, expiresAt⟩

def listPrincipalGrants : Handler (List Database.Grant) := Database.listAllGrants p

def revokeGrant (id : Uuid) : Handler (List Uuid) := Database.revokeGrant p id

def listPendingApprovals : Handler (List Database.ApprovalRequest) :=
  Database.listPendingApprovals p

structure ApproveRequest where
  approverId : Uuid
  reason : Option String
deriving DecidableEq, Repr

def approveRequest (id : Uuid) (req : ApproveRequest) : Handler Database.ApprovalRequest :=
  Database.resolveApprovalRequest p id req.approverId true req.reason

def denyRequest (id : Uuid) (req : ApproveRequest) : Handler Database.ApprovalRequest :=
  Database.resolveApprovalRequest p id req.approverId false req.reason

end

end Patroclus
