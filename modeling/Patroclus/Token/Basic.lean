import Patroclus.Crate.Json
import Patroclus.Crate.Chrono

/-!
# Agent tokens

Every token of the system is a JWT over `AgentClaims`. Delegation grants and
access tokens have the same claims; a grant carries the audience of the agent
that may present it, an access token carries the resource it is for.
-/

namespace Patroclus

structure DelegationHop where
  sub : String
  act : String
deriving DecidableEq, Repr

structure ActClaim where
  sub : String
  delegationDepth : Nat
  delegationChain : Option (List DelegationHop)
deriving DecidableEq, Repr

structure CnfClaim where
  jkt : String
deriving DecidableEq, Repr

structure AgentClaims where
  iss : String
  sub : String
  act : ActClaim
  scope : String
  aud : String
  exp : Int
  iat : Int
  jti : String
  constraints : Option Json
  cnf : Option CnfClaim
deriving DecidableEq, Repr

structure IssueTokenParams where
  issuer : String
  subject : String
  agentId : String
  scopes : List String
  audience : String
  ttlSeconds : Nat
  delegationDepth : Nat
  delegationChain : Option (List DelegationHop)
  constraints : Option Json
deriving DecidableEq, Repr

/-- The expiry counted from a clock reading; `none` is a panic. -/
def IssueTokenParams.expiry (params : IssueTokenParams) (now : Instant) : Option Instant :=
  now.addSeconds (asI64 params.ttlSeconds)

/-- A chain as `serde_json::to_value` builds it: an array of objects. -/
def DelegationHop.toJson (hop : DelegationHop) : Json :=
  .object [("act", .string hop.act), ("sub", .string hop.sub)]

def chainToJson (chain : List DelegationHop) : Json := .array (chain.map DelegationHop.toJson)

end Patroclus
