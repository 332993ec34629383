import Mathlib.Init

/-!
# Errors

`PatroclusError` is the error of every fallible operation, with the texts that
the program prints for it. A handler may also stop by a panic, which sends no
answer and which `Failure` keeps apart from a returned error.
-/

namespace Patroclus

inductive PatroclusError where
  | agentNotFound (message : String)
  | principalNotFound (message : String)
  | resourceNotFound (message : String)
  | policyDenied (reason : String)
  | approvalRequired (reason : String)
  | invalidToken (message : String)
  | expiredToken
  | revokedToken (jti : String)
  | scopeEscalation (requested parent : String)
  | delegationDepthExceeded (max actual : Nat)
  | vault (message : String)
  | database (message : String)
  | config (message : String)
  | crypto (message : String)
  | unauthorized (message : String)
  | forbidden (message : String)
  | unavailable (message : String)
  | notImplemented (message : String)
deriving DecidableEq, Repr

namespace PatroclusError

/-- The `Display` text of an error. -/
protected def toString : PatroclusError → String
  | agentNotFound m => "agent not found: " ++ m
  | principalNotFound m => "principal not found: " ++ m
  | resourceNotFound m => "resource not found: " ++ m
  | policyDenied reason => "policy denied: " ++ reason
  | approvalRequired reason => "approval required: " ++ reason
  | invalidToken m => "invalid token: " ++ m
  | expiredToken => "expired token"
  | revokedToken jti => "revoked token: " ++ jti
  | scopeEscalation requested parent =>
      "scope escalation attempted: requested " ++ requested ++ " exceeds parent " ++ parent
  | delegationDepthExceeded max actual =>
      "delegation depth exceeded: max " ++ toString max ++ ", got " ++ toString actual
  | vault m => "vault error: " ++ m
  | database m => "database error: " ++ m
  | config m => "configuration error: " ++ m
  | crypto m => "cryptographic error: " ++ m
  | unauthorized m => "unauthorized: " ++ m
  | forbidden m => "forbidden: " ++ m
  | unavailable m => "service unavailable: " ++ m
  | notImplemented m => "not implemented: " ++ m

/-- The HTTP status with which an error is answered. -/
def status : PatroclusError → Nat
  | agentNotFound _ | principalNotFound _ | resourceNotFound _ => 404
  | policyDenied _ => 403
  | approvalRequired _ => 403
  | invalidToken _ | expiredToken | revokedToken _ => 401
  | unauthorized _ => 401
  | forbidden _ => 403
  | unavailable _ => 503
  | scopeEscalation _ _ | delegationDepthExceeded _ _ => 400
  | _ => 500

end PatroclusError

/-- How a handler stops without an answer of its own. -/
inductive Failure where
  | error (e : PatroclusError)
  | panic
  | unreachable
deriving DecidableEq, Repr

end Patroclus
