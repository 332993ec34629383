import Patroclus.Runtime

/-!
# Token issuing
-/

namespace Patroclus

open Foundation

section

variable (p : Platform)

/-- The claims that `issue` signs. The issuer is the configured one. -/
def IssueTokenParams.claims (params : IssueTokenParams) (iat exp : Int) (jti : String) :
    AgentClaims where
  iss := p.config.tokenIssuer
  sub := params.subject
  act := {
    sub := params.agentId
    delegationDepth := params.delegationDepth
    delegationChain := params.delegationChain }
  scope := joinScopes params.scopes
  aud := params.audience
  exp := exp
  iat := iat
  jti := jti
  constraints := params.constraints
  cnf := none

/-- The part of `issue` after its readings: the expiry may be out of range, and
signing may fail. -/
def sign (origin : Origin) (params : IssueTokenParams) (now : Instant) (id : Uuid)
    (clock : Instant) : Except Failure Minted :=
  match params.expiry clock with
  | none => .error .panic
  | some expiry =>
      let claims := params.claims p now.timestamp expiry.timestamp id.toString
      match p.jwt.encode claims with
      | .error message => .error (.error (.crypto ("token encoding failed: " ++ message)))
      | .ok token => .ok ⟨origin, token, claims, clock⟩

def Serving.mint (s : Serving) (minted : Minted) : Serving :=
  { s with ledger := s.ledger ++ [minted] }

/-- `TokenIssuer::issue`; returns the token and its `jti`, and enters it in the ledger. -/
def issue (origin : Origin) (params : IssueTokenParams) : Handler (String × String) := do
  let now ← utcNow
  let id ← nowV7
  let clock ← utcNow
  let minted ← Action.lift (sign p origin params now id clock)
  Action.write fun s => s.mint minted
  return (minted.token, minted.claims.jti)

@[simp] theorem Serving.mint_app (s : Serving) (minted : Minted) :
    (s.mint minted).app = s.app := rfl

@[simp] theorem Serving.mint_ledger (s : Serving) (minted : Minted) :
    (s.mint minted).ledger = s.ledger ++ [minted] := rfl

@[simp] theorem Serving.mint_tape (s : Serving) (minted : Minted) :
    (s.mint minted).tape = s.tape := rfl

@[simp] theorem Serving.mint_tick (s : Serving) (minted : Minted) :
    (s.mint minted).tick = s.tick := rfl

variable {p} {origin : Origin} {params : IssueTokenParams}

/-- A signed token carries the parameters it was issued with. -/
theorem sign_eq_ok {now clock : Instant} {id : Uuid} {minted : Minted} :
    sign p origin params now id clock = .ok minted ↔ ∃ expiry token,
      params.expiry clock = some expiry ∧
      p.jwt.encode (params.claims p now.timestamp expiry.timestamp id.toString) = .ok token ∧
      minted = ⟨origin, token, params.claims p now.timestamp expiry.timestamp id.toString,
        clock⟩ := by
  rw [sign]
  constructor
  · intro h
    split at h
    · cases h
    · rename_i expiry hexpiry
      dsimp only at h
      split at h
      · cases h
      · rename_i token htoken
        cases h
        exact ⟨expiry, token, hexpiry, htoken, rfl⟩
  · rintro ⟨expiry, token, hexpiry, htoken, rfl⟩
    simp only [hexpiry, htoken]

/-- What a signed token carries, without the readings it was made from. -/
structure Signed (p : Platform) (origin : Origin) (params : IssueTokenParams) (minted : Minted) :
    Prop where
  origin : minted.origin = origin
  payload : p.jwt.payload minted.token = some minted.claims
  claims : ∃ iat exp jti, minted.claims = params.claims p iat exp jti
  expiry : ∃ expiry, params.expiry minted.clock = some expiry ∧ minted.claims.exp = expiry.timestamp

theorem sign_signed {now clock : Instant} {id : Uuid} {minted : Minted}
    (h : sign p origin params now id clock = .ok minted) : Signed p origin params minted := by
  obtain ⟨expiry, token, hexpiry, htoken, rfl⟩ := sign_eq_ok.mp h
  exact ⟨rfl, p.jwt.payload_encode htoken, ⟨_, _, _, rfl⟩, expiry, hexpiry, rfl⟩

theorem sign_clock {now clock : Instant} {id : Uuid} {minted : Minted}
    (h : sign p origin params now id clock = .ok minted) : minted.clock = clock := by
  obtain ⟨expiry, token, -, -, rfl⟩ := sign_eq_ok.mp h
  rfl

theorem sign_jti {now clock : Instant} {id : Uuid} {minted : Minted}
    (h : sign p origin params now id clock = .ok minted) : minted.claims.jti = id.toString := by
  obtain ⟨expiry, token, -, -, rfl⟩ := sign_eq_ok.mp h
  rfl

theorem issue_run (s : Serving) : issue p origin params s =
    match sign p origin params (s.tape.now s.tick) (s.tape.uuid (s.tick + 1))
      (s.tape.now (s.tick + 2)) with
    | .ok minted => (.ok (minted.token, minted.claims.jti), s.next.next.next.mint minted)
    | .error e => (.error e, s.next.next.next) := by
  have hrun : issue p origin params s =
      (Action.lift (sign p origin params (s.tape.now s.tick) (s.tape.uuid (s.tick + 1))
        (s.tape.now (s.tick + 2))) >>= fun minted =>
          (Action.write fun s => s.mint minted) >>= fun _ =>
            pure (minted.token, minted.claims.jti) : Handler (String × String))
        s.next.next.next := rfl
  rw [hrun]
  cases sign p origin params (s.tape.now s.tick) (s.tape.uuid (s.tick + 1))
      (s.tape.now (s.tick + 2)) with
  | error e => rfl
  | ok minted => rfl

theorem issue_eq_ok {s finish : Serving} {result : String × String} :
    issue p origin params s = (.ok result, finish) ↔ ∃ minted,
      sign p origin params (s.tape.now s.tick) (s.tape.uuid (s.tick + 1))
        (s.tape.now (s.tick + 2)) = .ok minted ∧
      result = (minted.token, minted.claims.jti) ∧ finish = s.next.next.next.mint minted := by
  rw [issue_run]
  cases sign p origin params (s.tape.now s.tick) (s.tape.uuid (s.tick + 1))
      (s.tape.now (s.tick + 2)) with
  | error e => simp
  | ok minted =>
      simp only [Prod.mk.injEq, Except.ok.injEq, exists_eq_left']
      exact and_congr eq_comm eq_comm

/-- An issue that fails signs nothing. -/
theorem issue_eq_error {s finish : Serving} {e : Failure}
    (h : issue p origin params s = (.error e, finish)) : finish = s.next.next.next := by
  rw [issue_run] at h
  cases hsign : sign p origin params (s.tape.now s.tick) (s.tape.uuid (s.tick + 1))
      (s.tape.now (s.tick + 2)) with
  | error e =>
      rw [hsign] at h
      exact (Prod.mk.inj h).2.symm
  | ok minted =>
      rw [hsign] at h
      cases h

end

end Patroclus
