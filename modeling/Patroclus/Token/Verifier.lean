import Patroclus.Runtime

/-!
# Token verification

`verify` decodes the token under the configured issuer and the audience that the
caller expects, compares the expiry with a second clock reading, and looks the
`jti` up in the in-memory revocation set. It never asks the database.
-/

namespace Patroclus

open Foundation

namespace TokenVerifier

variable (p : Platform)

/-- `verify` on given clock readings: the one of the decoder and its own. -/
def verify (jtiStore : Finset String) (decodeNow now : Instant) (token : String)
    (expectedAudience : Option String) : Except PatroclusError AgentClaims :=
  match p.jwt.decode token ⟨p.config.tokenIssuer, expectedAudience⟩ decodeNow.timestamp with
  | .error .expiredSignature => .error .expiredToken
  | .error (.other message) => .error (.invalidToken message)
  | .ok claims =>
      if claims.exp < now.timestamp then .error .expiredToken
      else if claims.jti ∈ jtiStore then .error (.revokedToken claims.jti)
      else .ok claims

variable {p} {jtiStore : Finset String} {decodeNow now : Instant} {token : String}
  {audience : Option String} {claims : AgentClaims}

theorem verify_of_decode (h : p.jwt.decode token ⟨p.config.tokenIssuer, audience⟩
    decodeNow.timestamp = .ok claims) : verify p jtiStore decodeNow now token audience =
      if claims.exp < now.timestamp then .error .expiredToken
      else if claims.jti ∈ jtiStore then .error (.revokedToken claims.jti) else .ok claims := by
  rw [verify, h]

theorem verify_ok_iff : verify p jtiStore decodeNow now token audience = .ok claims ↔
    p.jwt.payload token = some claims ∧
      (⟨p.config.tokenIssuer, audience⟩ : Validation).Accepts claims decodeNow.timestamp ∧
      now.timestamp ≤ claims.exp ∧ claims.jti ∉ jtiStore := by
  rw [← and_assoc, ← p.jwt.decode_ok_iff]
  constructor
  · intro h
    rw [verify] at h
    split at h
    · cases h
    · cases h
    · rename_i decoded hdecode
      split_ifs at h with hexpired hrevoked
      cases h
      exact ⟨hdecode, by omega, hrevoked⟩
  · rintro ⟨hdecode, hexp, hjti⟩
    rw [verify_of_decode hdecode, if_neg (by omega), if_neg hjti]

theorem verify_claims (h : verify p jtiStore decodeNow now token audience = .ok claims) :
    p.jwt.payload token = some claims :=
  (verify_ok_iff.mp h).1

theorem verify_audience {expected : String}
    (h : verify p jtiStore decodeNow now token (some expected) = .ok claims) :
    claims.aud = expected := by
  obtain ⟨-, ⟨-, -, -, haud⟩, -⟩ := verify_ok_iff.mp h
  obtain haud | haud := haud
  · cases haud
  · exact (Option.some.inj haud).symm

end TokenVerifier

section

variable (p : Platform)

/-- `state.token_verifier.verify(..)?` -/
def verifyToken (token : String) (expectedAudience : Option String) : Handler AgentClaims := do
  let decodeNow ← utcNow
  let now ← utcNow
  let jtiStore ← Action.read fun s => s.app.jtiStore
  match TokenVerifier.verify p jtiStore decodeNow now token expectedAudience with
  | .ok claims => return claims
  | .error e => raise e

/-- `state.token_verifier.revoke(..)` -/
def revokeJti (jti : String) : Handler Unit :=
  modifyApp fun app => { app with jtiStore := insert jti app.jtiStore }

variable {p}

theorem verifyToken_eq_ok {token : String} {audience : Option String} {claims : AgentClaims}
    {s finish : Serving} : verifyToken p token audience s = (.ok claims, finish) ↔
      TokenVerifier.verify p s.app.jtiStore (s.tape.now s.tick) (s.tape.now (s.tick + 1)) token
        audience = .ok claims ∧ finish = s.next.next := by
  have hrun : verifyToken p token audience s =
      (match TokenVerifier.verify p s.app.jtiStore (s.tape.now s.tick) (s.tape.now (s.tick + 1))
          token audience with
        | .ok claims => pure claims
        | .error e => raise e : Handler AgentClaims) s.next.next := rfl
  rw [hrun]
  cases TokenVerifier.verify p s.app.jtiStore (s.tape.now s.tick) (s.tape.now (s.tick + 1)) token
      audience with
  | ok claims =>
      simp only [Action.pure_run, Prod.mk.injEq, Except.ok.injEq]
      exact and_congr_right fun _ => eq_comm
  | error e => simp [raise]

end

end Patroclus
