import Patroclus.Api.Decision
import Patroclus.Api.Delegation

/-!
# How long minted tokens live

Each minting call counts an expiry for the token that it signs and another one for the
row and the answer. Here are the clock readings behind both, for calls that succeed.
-/

namespace Patroclus

open Foundation

/-- The expiry of the parent and the readings of `delegate` from which those of the child
are counted. An expiry that is no date is replaced by a reading of its own. -/
structure DelegationReadings where
  parent : Instant
  requested : Instant
  remaining : Instant
  issued : Instant

def delegationReadings (claims : AgentClaims) (s : Serving) : DelegationReadings :=
  match Instant.fromTimestamp claims.exp with
  | some parent =>
      ⟨parent, s.tape.now (s.tick + 2), s.tape.now (s.tick + 3), s.tape.now (s.tick + 6)⟩
  | none => ⟨s.tape.now (s.tick + 2), s.tape.now (s.tick + 3), s.tape.now (s.tick + 4),
      s.tape.now (s.tick + 7)⟩

/-- What a successful `delegate` has signed, recorded and answered. -/
structure ChildExpires (p : Platform) (auth : Option Uuid) (req : DelegateRequest)
    (response : DelegateResponse) (s finish : Serving) (parent child : AgentClaims)
    (requested : Instant) : Prop where
  verified : ∃ presenter, auth = some presenter ∧ TokenVerifier.verify p s.app.jtiStore
    (s.tape.now s.tick) (s.tape.now (s.tick + 1)) req.parentGrantToken
      (some (agentAudience presenter)) = .ok parent
  requests : (delegationReadings parent s).requested.addSeconds (asI64 req.expiresInSeconds) =
    some requested
  answers : response.expiresAt = min (delegationReadings parent s).parent requested
  signs : p.jwt.payload response.delegatedToken = some child
  expiry : ∃ expiry, (delegationReadings parent s).issued.addSeconds
    (asI64 (response.expiresAt.secondsSince (delegationReadings parent s).remaining).toNat) =
      some expiry ∧ child.exp = expiry.timestamp
  records : ∃ row, finish.app.db.tokens = s.app.db.tokens ++ [row] ∧ row.id = child.jti ∧
    row.expiresAt = p.toRfc3339 response.expiresAt

/-- What a successful `principal_delegate` has signed, recorded and answered, by the two
readings that it counts from. -/
structure GrantExpires (p : Platform) (req : PrincipalDelegateRequest)
    (response : PrincipalDelegateResponse) (s finish : Serving) (granted issued : Instant)
    (claims : AgentClaims) : Prop where
  answers : granted.addSeconds (asI64 req.expiresInSeconds) = some response.expiresAt
  signs : p.jwt.payload response.delegationToken = some claims
  expiry : ∃ expiry, issued.addSeconds
    (asI64 (min req.expiresInSeconds p.config.maxTtlSeconds)) = some expiry ∧
      claims.exp = expiry.timestamp
  records : ∃ row, finish.app.db.tokens = s.app.db.tokens ++ [row] ∧ row.id = claims.jti ∧
    row.expiresAt = p.toRfc3339 response.expiresAt

/-- What `request_access` has signed, recorded and answered with a token. -/
structure AccessExpires (p : Platform) (info : IssuedTokenInfo) (s finish : Serving)
    (issued answered : Instant) (claims : AgentClaims) : Prop where
  answers : answered.addSeconds (asI64 p.config.defaultTtlSeconds) = some info.expiresAt
  signs : p.jwt.payload info.jwt = some claims
  expiry : ∃ expiry, issued.addSeconds (asI64 p.config.defaultTtlSeconds) = some expiry ∧
    claims.exp = expiry.timestamp
  records : ∃ row, finish.app.db.tokens = s.app.db.tokens ++ [row] ∧ row.id = claims.jti ∧
    row.expiresAt = p.toRfc3339 info.expiresAt

/-- What remains at a later reading is no more than what was requested. -/
theorem remaining_lt {reading remaining effective seconds : Int} (later : reading ≤ remaining)
    (le : effective ≤ reading + seconds * 1000000000) (small : seconds < 2 ^ 63) :
    ((effective - remaining) / 1000000000).toNat < 2 ^ 63 := by omega

section

variable {p : Platform} {s finish : Serving}

/-- The expiry of a child after the two readings of the verification. -/
theorem delegationExpiry_readings {claims : AgentClaims} {expiresInSeconds : Nat}
    {expiry : Instant × Nat}
    (run : delegationExpiry claims expiresInSeconds s.next.next = (.ok expiry, finish)) :
    let readings := delegationReadings claims s
    ∃ requested, readings.requested.addSeconds (asI64 expiresInSeconds) = some requested ∧
      expiry = (min readings.parent requested,
        ((min readings.parent requested).secondsSince readings.remaining).toNat) ∧
      finish.app = s.app ∧ finish.tape.now (finish.tick + 2) = readings.issued := by
  rw [delegationExpiry] at run
  simp only [delegationReadings]
  cases hparent : Instant.fromTimestamp claims.exp with
  | some parent =>
      rw [hparent] at run
      obtain ⟨_, s₁, hpure, run⟩ := Action.bind_ok_iff.mp run
      cases hpure
      obtain ⟨now, s₂, hnow, run⟩ := Action.bind_ok_iff.mp run
      cases hnow
      obtain ⟨requested, s₃, hrequested, run⟩ := Action.bind_ok_iff.mp run
      obtain ⟨hsum, rfl⟩ := orPanic_eq_ok hrequested
      cases run
      exact ⟨requested, hsum, rfl, rfl, rfl⟩
  | none =>
      rw [hparent] at run
      obtain ⟨_, s₁, hpure, run⟩ := Action.bind_ok_iff.mp run
      cases hpure
      obtain ⟨now, s₂, hnow, run⟩ := Action.bind_ok_iff.mp run
      cases hnow
      obtain ⟨requested, s₃, hrequested, run⟩ := Action.bind_ok_iff.mp run
      obtain ⟨hsum, rfl⟩ := orPanic_eq_ok hrequested
      cases run
      exact ⟨requested, hsum, rfl, rfl, rfl⟩

theorem delegate_expires {auth : Option Uuid} {req : DelegateRequest} {response : DelegateResponse}
    (run : delegate p auth req s = (.ok response, finish)) :
    ∃ parent child requested, ChildExpires p auth req response s finish parent child requested := by
  obtain ⟨presenter, s₀, hauth, run⟩ := Action.bind_ok_iff.mp run
  cases auth with
  | none => exact absurd hauth raise_ne_ok
  | some _ =>
      cases hauth
      obtain ⟨claims, s₁, hadmit, run⟩ := Action.bind_ok_iff.mp run
      obtain ⟨hadmitted, rfl⟩ := admitDelegation_eq_ok.mp hadmit
      obtain ⟨expiry, s₂, hexpiry, run⟩ := Action.bind_ok_iff.mp run
      obtain ⟨requested, hrequested, rfl, happ, hissued⟩ := delegationExpiry_readings hexpiry
      obtain ⟨result, s₃, hissue, run⟩ := Action.bind_ok_iff.mp run
      obtain ⟨minted, hsigned, rfl, rfl⟩ := issue_eq_ok.mp hissue
      obtain ⟨_, s₄, hrecord, run⟩ := Action.bind_ok_iff.mp run
      cases run
      obtain ⟨_, s₅, hrow, haudit⟩ := Action.bind_ok_iff.mp hrecord
      obtain ⟨row, hstored, htext, rfl⟩ := Database.recordToken_row hrow
      have htokens : finish.app.db.tokens = s₂.app.db.tokens ++ [row] :=
        congrArg Guarded.tokens (((keeps_createAuditEntry _).bind fun _ => .pure _).eq haudit)
      obtain ⟨end_, hend, hexp⟩ := (sign_signed hsigned).expiry
      refine ⟨claims, minted.claims, requested, ⟨presenter, rfl, hadmitted.verified⟩, hrequested,
        rfl, (sign_signed hsigned).payload, ⟨end_, ?_, hexp⟩, row, ?_, hstored.id, htext⟩
      · rw [← hissued, ← sign_clock hsigned]
        exact hend
      · rw [htokens, happ]

theorem delegationReadings_requested_le (clock : Monotone s.tape.now) (claims : AgentClaims) :
    (delegationReadings claims s).requested ≤ (delegationReadings claims s).remaining := by
  rw [delegationReadings]
  split
  · exact clock (Nat.le_succ _)
  · exact clock (Nat.le_succ _)

/-- The child's lifetime is what remained of the effective expiry, in whole seconds. -/
theorem ChildExpires.exp_eq {auth : Option Uuid} {req : DelegateRequest}
    {response : DelegateResponse} {parent child : AgentClaims} {requested : Instant}
    (h : ChildExpires p auth req response s finish parent child requested)
    (clock : Monotone s.tape.now) : child.exp =
      (delegationReadings parent s).issued.timestamp + ((response.expiresAt -
        (delegationReadings parent s).remaining) / 1000000000).toNat := by
  obtain ⟨expiry, hexpiry, hexp⟩ := h.expiry
  -- The remaining lifetime is no longer than the requested one, so it is no overflow.
  have hshort : ((response.expiresAt - (delegationReadings parent s).remaining) /
      1000000000).toNat < 2 ^ 63 := by
    have hle : response.expiresAt ≤ requested := h.answers.trans_le (min_le_right _ _)
    rw [Instant.addSeconds_eq h.requests] at hle
    exact remaining_lt (delegationReadings_requested_le clock parent) hle (asI64_lt _)
  rw [hexp, Instant.addSeconds_eq hexpiry, Instant.timestamp_add, Instant.toNat_secondsSince,
    asI64_of_lt hshort]

theorem principalDelegate_expires {req : PrincipalDelegateRequest}
    {response : PrincipalDelegateResponse}
    (run : principalDelegate p req s = (.ok response, finish)) :
    ∃ i j claims, GrantExpires p req response s finish (s.tape.now i) (s.tape.now j) claims := by
  have hview : TickFree fun s : Serving => (s.app.db.tokens, s.tape) := fun _ => rfl
  obtain ⟨agent, s₁, hagent, run⟩ := Action.bind_ok_iff.mp run
  have hkept₁ := (Database.keeps_getAgent hview _).eq hagent
  cases howner : agent.ownerId with
  | none =>
      rw [howner] at run
      exact absurd run raise_ne_ok
  | some ownerId =>
      rw [howner] at run
      obtain ⟨principal, s₂, hprincipal, run⟩ := Action.bind_ok_iff.mp run
      have hkept₂ := ((Database.keeps_getPrincipal hview _).eq hprincipal).trans hkept₁
      obtain ⟨now, s₃, hnow, run⟩ := Action.bind_ok_iff.mp run
      cases hnow
      obtain ⟨expiresAt, s₄, hexpires, run⟩ := Action.bind_ok_iff.mp run
      obtain ⟨hsum, rfl⟩ := orPanic_eq_ok hexpires
      obtain ⟨grantId, s₅, hgrant, run⟩ := Action.bind_ok_iff.mp run
      have hkept₅ : (s₅.app.db.tokens, s₅.tape) = (s.app.db.tokens, s.tape) :=
        ((Database.keeps_createGrant hview fun _ _ => rfl).eq hgrant).trans hkept₂
      obtain ⟨htokens, htape⟩ := Prod.mk.inj hkept₅
      obtain ⟨result, s₆, hissue, run⟩ := Action.bind_ok_iff.mp run
      obtain ⟨minted, hsigned, rfl, rfl⟩ := issue_eq_ok.mp hissue
      obtain ⟨_, s₇, hrecord, run⟩ := Action.bind_ok_iff.mp run
      obtain ⟨row, hstored, htext, rfl⟩ := Database.recordToken_row hrecord
      cases run
      obtain ⟨end_, hend, hexp⟩ := (sign_signed hsigned).expiry
      refine ⟨s₂.tick, s₅.tick + 2, minted.claims, ?_, (sign_signed hsigned).payload,
        ⟨end_, ?_, hexp⟩, row, ?_, hstored.id, htext⟩
      · rw [← (Prod.mk.inj hkept₂).2]
        exact hsum
      · rw [← htape, ← sign_clock hsigned]
        exact hend
      · exact congrArg (· ++ [row]) htokens

theorem requestAccess_expires {auth : Option Uuid} {req : AccessRequest}
    {response : AccessResponse} {info : IssuedTokenInfo}
    (run : requestAccess p auth req s = (.ok response, finish))
    (token : response.token = some info) :
    ∃ i j claims, AccessExpires p info s finish (s.tape.now i) (s.tape.now j) claims := by
  have hissued : response.token ≠ none := by
    rw [token]
    exact Option.some_ne_none info
  rcases requestAccess_eq_ok.mp run with ⟨caller, -, -, rfl⟩ | ⟨caller, -, -, -, rfl⟩ |
    ⟨caller, s₁, eval, s₂, s₃, hdecided⟩
  · exact absurd rfl hissued
  · exact absurd rfl hissued
  · have henacted := hdecided.enacted
    rw [enactDecision, enactDecision_token hdecided.enacted hissued] at henacted
    obtain ⟨minted, expiresAt, row, hgranted, hexpires, htext⟩ := grantAccess_expires henacted
    have hbefore : (s₂.app.db.tokens, s₂.tape) = (s.app.db.tokens, s.tape) := by
      obtain ⟨-, rfl⟩ := evalEngine_eq_ok.mp hdecided.evaluated
      have hfound := resolveCaller_found hdecided.resolved
      exact Prod.ext (congrArg Db.tokens hfound.db) hfound.tape
    obtain ⟨htokens, htape⟩ := Prod.mk.inj hbefore
    have hrecorded : finish.app.db.tokens = s₃.app.db.tokens :=
      congrArg Guarded.tokens ((keeps_recordDecision caller req eval response).eq hdecided.recorded)
    obtain ⟨end_, hend, hexp⟩ := (sign_signed hgranted.signed).expiry
    have hinfo : info = ⟨minted.token, expiresAt, eval.approvedScopes, minted.claims.jti⟩ := by
      rw [hgranted.response_eq] at token
      exact (Option.some.inj token).symm
    subst hinfo
    refine ⟨s₂.tick + 2, s₂.tick + 3, minted.claims, ?_, (sign_signed hgranted.signed).payload,
      ⟨end_, ?_, hexp⟩, row, ?_, hgranted.stored.id, htext⟩
    · rw [← htape]
      exact hexpires
    · rw [← htape, ← sign_clock hgranted.signed]
      exact hend
    · rw [hrecorded, hgranted.app, htokens]

end

end Patroclus
