import Patroclus.Api.Access

/-!
# Executions of the delegation endpoints

The checks of `delegate` as conditions on the state before the call, and what a
successful `delegate` or `principal_delegate` has signed.
-/

namespace Patroclus

open Foundation

section

variable {p : Platform} {s finish : Serving}

theorem escalatingScope_eq_none {parentScope : String} {scopes : List String} :
    escalatingScope parentScope scopes = none ↔
      ∀ scope ∈ scopes, scope ∈ splitWhitespace parentScope := by
  simp [escalatingScope, List.find?_eq_none]

/-- The checks of a delegation, on the state in which the call arrives: the parent
verifies for the presenter, has the requested scopes and leaves room for a hop. -/
structure Admits (p : Platform) (presenter : Uuid) (req : DelegateRequest) (s : Serving)
    (claims : AgentClaims) : Prop where
  verified : TokenVerifier.verify p s.app.jtiStore (s.tape.now s.tick) (s.tape.now (s.tick + 1))
    req.parentGrantToken (some (agentAudience presenter)) = .ok claims
  scopes : ∀ scope ∈ req.scopes, scope ∈ splitWhitespace claims.scope
  depth : nextDepth claims ≤ p.config.maxDelegationDepth

theorem admitDelegation_eq_ok {presenter : Uuid} {req : DelegateRequest} {claims : AgentClaims} :
    admitDelegation p presenter req s = (.ok claims, finish) ↔
      Admits p presenter req s claims ∧ s.next.next = finish := by
  rw [admitDelegation]
  rw [Action.bind_ok_iff]
  constructor
  · rintro ⟨verified, s₁, hverify, run⟩
    obtain ⟨hverified, hs₁⟩ := verifyToken_eq_ok.mp hverify
    cases hscope : escalatingScope verified.scope req.scopes with
    | some scope =>
        rw [hscope] at run
        exact absurd run raise_ne_ok
    | none =>
        simp only [hscope] at run
        split at run
        · exact absurd run raise_ne_ok
        · rename_i hdepth
          cases run
          exact ⟨⟨hverified, escalatingScope_eq_none.mp hscope, by omega⟩, hs₁.symm⟩
  · rintro ⟨h, rfl⟩
    refine ⟨claims, _, verifyToken_eq_ok.mpr ⟨h.verified, rfl⟩, ?_⟩
    rw [escalatingScope_eq_none.mpr h.scopes]
    simp only [gt_iff_lt, not_lt.mpr h.depth, if_false]
    rfl

theorem DelegationAllowed.tape {auth : Option Uuid} {req : DelegateRequest} {presenter : Uuid}
    {claims : AgentClaims} {s₁ s₂ : Serving} {expiry : Instant × Nat}
    (h : DelegationAllowed p auth req s presenter claims s₁ expiry s₂) : s₂.tape = s.tape := by
  obtain ⟨-, rfl⟩ := admitDelegation_eq_ok.mp h.admitted
  exact congrArg Prod.snd ((keeps_delegationExpiry tickFree_framed claims _).eq h.expiry)

/-- A delegation whose checks pass, whose dates are in range and whose child grant
is signed; `minted` is the child. -/
structure ChildSigned (p : Platform) (presenter : Uuid) (req : DelegateRequest) (s : Serving)
    (claims : AgentClaims) (expiry : Instant × Nat) (minted : Minted) : Prop where
  admitted : Admits p presenter req s claims
  signed : ∃ s₂, delegationExpiry claims req.expiresInSeconds s.next.next = (.ok expiry, s₂) ∧
    sign p (.delegate presenter req.parentGrantToken) (childParams p claims req expiry.2)
      (s₂.tape.now s₂.tick) (s₂.tape.uuid (s₂.tick + 1)) (s₂.tape.now (s₂.tick + 2)) = .ok minted

/-- What `delegate` does to the guarded part, in terms of the state before the call. -/
theorem delegate_signs (auth : Option Uuid) (req : DelegateRequest) (s : Serving) :
    (delegate p auth req s).2.guarded = s.guarded ∨ ∃ presenter claims expiry minted,
      auth = some presenter ∧ ChildSigned p presenter req s claims expiry minted ∧
      Guarded.Mints (DelegationRow req minted) minted s.guarded
        (delegate p auth req s).2.guarded := by
  rcases delegate_effect (p := p) auth req s with
    hkept | ⟨presenter, claims, s₁, expiry, s₂, minted, hallowed, hsigned, hmints⟩
  · exact .inl hkept
  · obtain ⟨hauth, hadmitted, hexpiry⟩ := hallowed
    obtain ⟨hadmits, rfl⟩ := admitDelegation_eq_ok.mp hadmitted
    exact .inr ⟨presenter, claims, expiry, minted, hauth, ⟨hadmits, s₂, hexpiry, hsigned⟩, hmints⟩

/-- A delegation that signs a child has entered it in the ledger, whatever the
database did afterwards. -/
theorem ledger_of_childSigned {presenter : Uuid} {req : DelegateRequest} {claims : AgentClaims}
    {expiry : Instant × Nat} {minted : Minted}
    (h : ChildSigned p presenter req s claims expiry minted) :
    (delegate p (some presenter) req s).2.ledger = s.ledger ++ [minted] := by
  obtain ⟨hadmitted, s₂, hexpiry, hsigned⟩ := h
  have hledger : s₂.ledger = s.ledger :=
    congrArg Guarded.ledger ((keeps_delegationExpiry tickFree_guarded claims _).eq hexpiry)
  obtain ⟨effectiveExpiry, ttlSeconds⟩ := expiry
  have hissue : issue p (.delegate presenter req.parentGrantToken)
      (childParams p claims req ttlSeconds) s₂ =
        (.ok (minted.token, minted.claims.jti), s₂.next.next.next.mint minted) :=
    issue_eq_ok.mpr ⟨minted, hsigned, rfl, rfl⟩
  have hrun : (delegate p (some presenter) req s).2 =
      ((recordDelegation p claims req minted.claims.jti effectiveExpiry >>= fun _ =>
        pure (⟨minted.token, effectiveExpiry, req.scopes⟩ : DelegateResponse))
          (s₂.next.next.next.mint minted)).2 := by
    rw [delegate, Action.bind_run_ok (rfl : authenticated (some presenter) s = (.ok presenter, s)),
      Action.bind_run_ok (admitDelegation_eq_ok.mpr ⟨hadmitted, rfl⟩),
      Action.bind_run_ok hexpiry]
    dsimp only
    rw [Action.bind_run_ok hissue]
  have hrecord : Stores (DelegationRow req minted)
      (recordDelegation p claims req minted.claims.jti effectiveExpiry) :=
    .then_keeps (stores_recordToken _ _ _ _ _ _) fun _ =>
      (keeps_createAuditEntry _).bind fun _ => .pure _
  rw [hrun, reply_state]
  have hstores := hrecord (s₂.next.next.next.mint minted)
  rw [← hledger]
  obtain h | ⟨row, -, h⟩ := hstores
  · exact congrArg Guarded.ledger h
  · exact congrArg Guarded.ledger h

/-- A successful `delegate` has signed a child of the presented parent. -/
theorem delegate_ok {auth : Option Uuid} {req : DelegateRequest} {response : DelegateResponse}
    (run : delegate p auth req s = (.ok response, finish)) :
    ∃ presenter claims expiry minted, auth = some presenter ∧
      ChildSigned p presenter req s claims expiry minted ∧
      response = ⟨minted.token, expiry.1, req.scopes⟩ ∧ finish.ledger = s.ledger ++ [minted] := by
  have hfinish : (delegate p auth req s).2 = finish := by rw [run]
  obtain ⟨presenter, s₀, hauth, run⟩ := Action.bind_ok_iff.mp run
  cases auth with
  | none => exact absurd hauth raise_ne_ok
  | some _ =>
      cases hauth
      obtain ⟨claims, s₁, hadmit, run⟩ := Action.bind_ok_iff.mp run
      obtain ⟨hadmitted, rfl⟩ := admitDelegation_eq_ok.mp hadmit
      obtain ⟨expiry, s₂, hexpiry, run⟩ := Action.bind_ok_iff.mp run
      obtain ⟨result, s₃, hissue, run⟩ := Action.bind_ok_iff.mp run
      obtain ⟨minted, hsigned, rfl, rfl⟩ := issue_eq_ok.mp hissue
      obtain ⟨_, s₄, -, run⟩ := Action.bind_ok_iff.mp run
      have hchild : ChildSigned p presenter req s claims expiry minted :=
        ⟨hadmitted, s₂, hexpiry, hsigned⟩
      exact ⟨presenter, claims, expiry, minted, rfl, hchild,
        (Except.ok.inj (Prod.mk.inj run).1).symm, by rw [← hfinish, ledger_of_childSigned hchild]⟩

/-- The claims of a signed child, by the claims of its parent. -/
theorem childSigned_claims {presenter : Uuid} {req : DelegateRequest} {claims : AgentClaims}
    {expiry : Instant × Nat} {minted : Minted}
    (h : ChildSigned p presenter req s claims expiry minted) :
    p.jwt.payload minted.token = some minted.claims ∧
      ∃ iat exp jti, minted.claims = (childParams p claims req expiry.2).claims p iat exp jti := by
  obtain ⟨-, s₂, -, hsigned⟩ := h
  exact ⟨(sign_signed hsigned).payload, (sign_signed hsigned).claims⟩

/-- A successful `principal_delegate` has signed a root grant for the agent. -/
theorem principalDelegate_ok {req : PrincipalDelegateRequest}
    {response : PrincipalDelegateResponse}
    (run : principalDelegate p req s = (.ok response, finish)) :
    ∃ (agent : Agent) (principal : Principal) (iat exp : Int) (jti : String),
      agent.id = req.agentId ∧ p.jwt.payload response.delegationToken =
        some ((grantParams p principal agent req).claims p iat exp jti) := by
  obtain ⟨agent, s₁, hagent, run⟩ := Action.bind_ok_iff.mp run
  cases howner : agent.ownerId with
  | none =>
      rw [howner] at run
      exact absurd run raise_ne_ok
  | some ownerId =>
      rw [howner] at run
      obtain ⟨principal, s₂, -, run⟩ := Action.bind_ok_iff.mp run
      obtain ⟨now, s₃, -, run⟩ := Action.bind_ok_iff.mp run
      obtain ⟨expiresAt, s₄, -, run⟩ := Action.bind_ok_iff.mp run
      obtain ⟨grantId, s₅, -, run⟩ := Action.bind_ok_iff.mp run
      obtain ⟨result, s₆, hissue, run⟩ := Action.bind_ok_iff.mp run
      obtain ⟨minted, hsigned, rfl, -⟩ := issue_eq_ok.mp hissue
      obtain ⟨_, s₇, -, run⟩ := Action.bind_ok_iff.mp run
      obtain ⟨expiry, token, -, hencode, rfl⟩ := sign_eq_ok.mp hsigned
      rw [← (Except.ok.inj (Prod.mk.inj run).1)]
      exact ⟨agent, principal, _, _, _, getAgent_id hagent, p.jwt.payload_encode hencode⟩

end

end Patroclus
