import Patroclus.Api.Frame

/-!
# What the minting calls can change

A call that mints signs one token, enters it in the ledger, and then stores at
most one row of the `tokens` table. `Stores` is the frame judgment for the part
after the signature, `Mints` the effect of the whole call. Each of the three
minting handlers gets its effect, with the run of its checks, once.
-/

namespace Patroclus

open Foundation

/-- At most one new row of the `tokens` table, and nothing else. -/
inductive Guarded.Stores (stored : TokenRow → Prop) (before after : Guarded) : Prop where
  | kept (h : after = before)
  | row (row : TokenRow) (hrow : stored row)
      (h : after = { before with tokens := before.tokens ++ [row] })

/-- One signed token, with at most one row for it. -/
def Guarded.Mints (stored : TokenRow → Prop) (minted : Minted) (before after : Guarded) : Prop :=
  Guarded.Stores stored { before with ledger := before.ledger ++ [minted] } after

section

variable {stored : TokenRow → Prop} {minted : Minted} {before after : Guarded}

theorem Guarded.Mints.killedAgents (h : Guarded.Mints stored minted before after) :
    after.killedAgents = before.killedAgents := by
  rcases h with rfl | ⟨_, _, rfl⟩ <;> rfl

theorem Guarded.Mints.jtiStore (h : Guarded.Mints stored minted before after) :
    after.jtiStore = before.jtiStore := by
  rcases h with rfl | ⟨_, _, rfl⟩ <;> rfl

theorem Guarded.Mints.ledger (h : Guarded.Mints stored minted before after) :
    after.ledger = before.ledger ++ [minted] := by
  rcases h with rfl | ⟨_, _, rfl⟩ <;> rfl

/-- A row of the table is an old one or the one that was stored. -/
theorem Guarded.Mints.mem_tokens (h : Guarded.Mints stored minted before after) {row : TokenRow}
    (hmem : row ∈ after.tokens) : row ∈ before.tokens ∨ stored row := by
  rcases h with rfl | ⟨new, hnew, rfl⟩
  · exact .inl hmem
  · rcases List.mem_append.mp hmem with hmem | hmem
    · exact .inl hmem
    · rw [List.mem_singleton.mp hmem]
      exact .inr hnew

end

/-- Every execution stores at most one row and leaves the rest of the guarded part alone. -/
def Stores {α : Type} (stored : TokenRow → Prop) (act : Handler α) : Prop :=
  ∀ s, Guarded.Stores stored s.guarded (act s).2.guarded

namespace Stores

variable {α β : Type} {stored : TokenRow → Prop}

theorem after_keeps {act : Handler α} {next : α → Handler β} (first : act.Keeps Serving.guarded)
    (rest : ∀ a, Stores stored (next a)) : Stores stored (act >>= next) := by
  intro s
  have hfirst := first s
  rcases hact : act s with ⟨outcome, middle⟩
  rw [hact] at hfirst
  cases outcome with
  | ok a =>
      rw [Action.bind_run_ok hact, ← hfirst]
      exact rest a middle
  | error e =>
      rw [Action.bind_run_error hact]
      exact .kept hfirst

theorem then_keeps {act : Handler α} {next : α → Handler β} (first : Stores stored act)
    (rest : ∀ a, (next a).Keeps Serving.guarded) : Stores stored (act >>= next) := by
  intro s
  have hfirst := first s
  rcases hact : act s with ⟨outcome, middle⟩
  rw [hact] at hfirst
  cases outcome with
  | ok a =>
      rw [Action.bind_run_ok hact, rest a middle]
      exact hfirst
  | error e =>
      rw [Action.bind_run_error hact]
      exact hfirst

end Stores

section

variable {p : Platform}

theorem stores_recordToken (jti : String) (grantId : Option Uuid) (agentId : Uuid)
    (scopes : List String) (audience : String) (expiresAt : Instant) :
    Stores (Database.Records jti grantId agentId scopes audience)
      (Database.recordToken p jti grantId agentId scopes audience expiresAt) := by
  intro s
  rcases hrun : Database.recordToken p jti grantId agentId scopes audience expiresAt s with
    ⟨outcome, finish⟩
  cases outcome with
  | ok a =>
      obtain ⟨row, hrow, rfl⟩ := Database.recordToken_ok hrun
      exact .row row hrow rfl
  | error e =>
      rw [Database.recordToken_error hrun]
      exact .kept rfl

/-- Issuing a token and going on with at most one stored row. -/
theorem mints_of_issue {α : Type} (origin : Origin) (params : IssueTokenParams)
    (stored : Minted → TokenRow → Prop) (rest : String × String → Handler α)
    (hrest : ∀ minted : Minted, Stores (stored minted) (rest (minted.token, minted.claims.jti)))
    (s : Serving) : Action.WP (issue p origin params >>= rest) (fun _ finish =>
      finish.guarded = s.guarded ∨ ∃ minted,
        sign p origin params (s.tape.now s.tick) (s.tape.uuid (s.tick + 1))
          (s.tape.now (s.tick + 2)) = .ok minted ∧
        Guarded.Mints (stored minted) minted s.guarded finish.guarded) s := by
  refine Action.WP.bind_of (fun result middle hissue => ?_) fun e finish hissue => ?_
  · obtain ⟨minted, hsign, rfl, rfl⟩ := issue_eq_ok.mp hissue
    exact .inr ⟨minted, hsign, hrest minted (s.next.next.next.mint minted)⟩
  · rw [issue_eq_error hissue]
    exact .inl rfl

/-! ## Requesting access -/

/-- The row that `request_access` records for a token. -/
def AccessRow (caller : Caller) (req : AccessRequest) (eval : PolicyEvaluation) (minted : Minted) :
    TokenRow → Prop :=
  Database.Records minted.claims.jti none caller.agent.id eval.approvedScopes req.resource

/-- The checks of a call that signs an access token: its caller is resolved and not
stopped, and the policy allows the request. -/
structure AccessAllowed (p : Platform) (auth : Option Uuid) (req : AccessRequest) (s : Serving)
    (caller : Caller) (s₁ : Serving) (eval : PolicyEvaluation) (s₂ : Serving) : Prop where
  resolved : resolveCaller p auth req s = (.ok caller, s₁)
  sessionAlive : caller.session.killed = false
  agentAlive : caller.agent.id ∉ s₁.app.sessionStore.killedAgents
  evaluated : evalEngine (caller.context req) s₁ = (.ok eval, s₂)
  allowed : eval.decision = .allow

theorem grantAccess_effect (caller : Caller) (req : AccessRequest) (eval : PolicyEvaluation)
    (s : Serving) : Action.WP (grantAccess p caller req eval) (fun _ finish =>
      finish.guarded = s.guarded ∨ ∃ minted,
        sign p (.requestAccess caller.agent.id) (caller.tokenParams p req eval)
          (s.tape.now s.tick) (s.tape.uuid (s.tick + 1)) (s.tape.now (s.tick + 2)) = .ok minted ∧
        Guarded.Mints (AccessRow caller req eval minted) minted s.guarded finish.guarded) s := by
  refine mints_of_issue _ _ (AccessRow caller req eval) _ (fun minted => ?_) s
  exact .after_keeps (keeps_utcNow tickFree_guarded) fun _ => .after_keeps (keeps_orPanic _)
    fun _ => .then_keeps (stores_recordToken _ _ _ _ _ _) fun _ => .pure _

theorem requestAccess_effect (auth : Option Uuid) (req : AccessRequest) (s : Serving) :
    Action.WP (requestAccess p auth req) (fun _ finish => finish.guarded = s.guarded ∨
      ∃ caller s₁ eval s₂ minted, AccessAllowed p auth req s caller s₁ eval s₂ ∧
        sign p (.requestAccess caller.agent.id) (caller.tokenParams p req eval)
          (s₂.tape.now s₂.tick) (s₂.tape.uuid (s₂.tick + 1)) (s₂.tape.now (s₂.tick + 2)) =
            .ok minted ∧
        Guarded.Mints (AccessRow caller req eval minted) minted s.guarded finish.guarded) s := by
  have resolve := keeps_resolveCaller (p := p) tickFree_guarded ignoresSessions_guarded auth req
  refine Action.WP.bind_of (fun caller s₁ hcaller => ?_) fun e finish herror =>
    .inl (resolve.eq herror)
  have hguard₁ := resolve.eq hcaller
  split
  · exact .inl hguard₁
  · rename_i hsession
    refine Action.WP.bind_of (fun stopped s₁' hread => ?_) fun e finish herror => by cases herror
    cases hread
    split
    · exact .inl hguard₁
    · rename_i hagent
      have evaluate := keeps_evalEngine tickFree_guarded ignoresSessions_guarded
        (caller.context req)
      refine Action.WP.bind_of (fun eval s₂ heval => ?_) fun e finish herror =>
        .inl ((evaluate.eq herror).trans hguard₁)
      have hguard₂ : s₂.guarded = s.guarded := (evaluate.eq heval).trans hguard₁
      have suffix (response : AccessResponse) :
          (do recordDecision p caller req eval response; return response :
            Handler AccessResponse).Keeps Serving.guarded :=
        (keeps_recordDecision caller req eval response).bind fun _ => .pure _
      -- Only an allowed request reaches the issuer.
      cases hdecision : eval.decision with
      | deny =>
          have hdeny :
              enactDecision p caller req eval = pure (AccessResponse.ofEvaluation eval) := by
            rw [enactDecision, hdecision]
          rw [hdeny]
          exact .inl (((Action.Keeps.pure _).bind suffix s₂).trans hguard₂)
      | requireApproval approver reason =>
          have happroval : enactDecision p caller req eval = requestApproval p caller req eval := by
            rw [enactDecision, hdecision]
          rw [happroval]
          exact .inl (((keeps_requestApproval caller req eval).bind suffix s₂).trans hguard₂)
      | allow =>
          have hallow : enactDecision p caller req eval = grantAccess p caller req eval := by
            rw [enactDecision, hdecision]
          rw [hallow]
          have heffect : ((grantAccess p caller req eval >>= fun response => do
              recordDecision p caller req eval response; return response) s₂).2.guarded =
                (grantAccess p caller req eval s₂).2.guarded := by
            rcases hgrant : grantAccess p caller req eval s₂ with ⟨outcome, s₃⟩
            cases outcome with
            | ok response => rw [Action.bind_run_ok hgrant, suffix response s₃]
            | error e => rw [Action.bind_run_error hgrant]
          rcases grantAccess_effect (p := p) caller req eval s₂ with hkept | ⟨minted, hsign, hmints⟩
          · exact .inl ((heffect.trans hkept).trans hguard₂)
          · refine .inr ⟨caller, s₁, eval, s₂, minted, ⟨hcaller, by simpa using hsession,
              by simpa [SessionStore.isAgentKilled] using hagent, heval, hdecision⟩, hsign, ?_⟩
            rw [← heffect, hguard₂] at hmints
            exact hmints

/-! ## Delegating -/

def DelegationRow (req : DelegateRequest) (minted : Minted) : TokenRow → Prop :=
  Database.Records minted.claims.jti none req.subAgentId req.scopes (agentAudience req.subAgentId)

/-- The checks of a call that signs a child grant. -/
structure DelegationAllowed (p : Platform) (auth : Option Uuid) (req : DelegateRequest)
    (s : Serving) (presenter : Uuid) (claims : AgentClaims) (s₁ : Serving) (expiry : Instant × Nat)
    (s₂ : Serving) : Prop where
  authenticated : auth = some presenter
  admitted : admitDelegation p presenter req s = (.ok claims, s₁)
  expiry : delegationExpiry claims req.expiresInSeconds s₁ = (.ok expiry, s₂)

theorem delegate_effect (auth : Option Uuid) (req : DelegateRequest) (s : Serving) :
    Action.WP (delegate p auth req) (fun _ finish => finish.guarded = s.guarded ∨
      ∃ presenter claims s₁ expiry s₂ minted,
        DelegationAllowed p auth req s presenter claims s₁ expiry s₂ ∧
        sign p (.delegate presenter req.parentGrantToken) (childParams p claims req expiry.2)
          (s₂.tape.now s₂.tick) (s₂.tape.uuid (s₂.tick + 1)) (s₂.tape.now (s₂.tick + 2)) =
            .ok minted ∧
        Guarded.Mints (DelegationRow req minted) minted s.guarded finish.guarded) s := by
  refine Action.WP.bind_of (fun presenter s₀ hauth => ?_) fun e finish herror =>
    .inl ((keeps_authenticated auth).eq herror)
  obtain ⟨rfl, rfl⟩ : auth = some presenter ∧ s₀ = s := by
    cases auth with
    | none => cases hauth
    | some agentId =>
        cases hauth
        exact ⟨rfl, rfl⟩
  refine Action.WP.bind_of (fun claims s₁ hadmit => ?_) fun e finish herror =>
    .inl ((keeps_admitDelegation tickFree_guarded presenter req).eq herror)
  have hguard₁ := (keeps_admitDelegation tickFree_guarded presenter req).eq hadmit
  refine Action.WP.bind_of (fun expiry s₂ hexpiry => ?_) fun e finish herror =>
    .inl (((keeps_delegationExpiry tickFree_guarded claims _).eq herror).trans hguard₁)
  have hguard₂ := ((keeps_delegationExpiry tickFree_guarded claims _).eq hexpiry).trans hguard₁
  obtain ⟨effectiveExpiry, ttlSeconds⟩ := expiry
  refine Action.WP.mono (mints_of_issue _ _ (DelegationRow req) _ (fun minted => ?_) s₂) ?_
  · exact .then_keeps (.then_keeps (stores_recordToken _ _ _ _ _ _) fun _ =>
      (keeps_createAuditEntry _).bind fun _ => .pure _) fun _ => .pure _
  · intro _ finish heffect
    rw [hguard₂] at heffect
    rcases heffect with hkept | ⟨minted, hsign, hmints⟩
    · exact .inl hkept
    · exact .inr ⟨presenter, claims, s₁, _, s₂, minted, ⟨rfl, hadmit, hexpiry⟩, hsign, hmints⟩

/-! ## Granting -/

def GrantRowOf (agent : Agent) (req : PrincipalDelegateRequest) (grantId : Uuid) (minted : Minted) :
    TokenRow → Prop :=
  Database.Records minted.claims.jti (some grantId) agent.id req.scopes (agentAudience agent.id)

/-- The steps before a root grant is signed: the agent and its owner are read, and
the grant is stored under an id drawn for it. -/
structure GrantStored (p : Platform) (req : PrincipalDelegateRequest) (s : Serving) (agent : Agent)
    (principal : Principal) (grantId : Uuid) (s₁ : Serving) : Prop where
  framed : s₁.framed = s.framed
  found : ∃ s', Database.getAgent p req.agentId s = (.ok agent, s')
  owner : ∃ ownerId s' s'', agent.ownerId = some ownerId ∧
    Database.getPrincipal p ownerId s' = (.ok principal, s'')
  drawn : ∃ n, grantId = s.tape.uuid n

theorem principalDelegate_effect (req : PrincipalDelegateRequest) (s : Serving) :
    Action.WP (principalDelegate p req) (fun _ finish => finish.guarded = s.guarded ∨
      ∃ agent principal grantId s₁ minted, GrantStored p req s agent principal grantId s₁ ∧
        sign p (.principalDelegate grantId) (grantParams p principal agent req)
          (s₁.tape.now s₁.tick) (s₁.tape.uuid (s₁.tick + 1)) (s₁.tape.now (s₁.tick + 2)) =
            .ok minted ∧
        Guarded.Mints (GrantRowOf agent req grantId minted) minted s.guarded finish.guarded) s := by
  have left {e : Serving} (h : e.framed = s.framed) : e.guarded = s.guarded := congrArg Prod.fst h
  refine Action.WP.bind_of (fun agent s₁ hagent => ?_) fun e finish herror =>
    .inl (left ((Database.keeps_getAgent tickFree_framed _).eq herror))
  have hframed₁ := (Database.keeps_getAgent tickFree_framed _).eq hagent
  cases howner : agent.ownerId with
  | none => exact .inl (left hframed₁)
  | some ownerId =>
      refine Action.WP.bind_of (fun principal s₂ hprincipal => ?_) fun e finish herror =>
        .inl (left (((Database.keeps_getPrincipal tickFree_framed _).eq herror).trans hframed₁))
      have hframed₂ :=
        ((Database.keeps_getPrincipal tickFree_framed _).eq hprincipal).trans hframed₁
      refine Action.WP.bind_of (fun now s₃ hnow => ?_) fun e finish herror =>
        .inl (left (((keeps_utcNow tickFree_framed).eq herror).trans hframed₂))
      have hframed₃ := ((keeps_utcNow tickFree_framed).eq hnow).trans hframed₂
      refine Action.WP.bind_of (fun expiresAt s₄ hexpires => ?_) fun e finish herror =>
        .inl (left (((keeps_orPanic _).eq herror).trans hframed₃))
      have hframed₄ : s₄.framed = s.framed := ((keeps_orPanic _).eq hexpires).trans hframed₃
      refine Action.WP.bind_of (fun grantId s₅ hgrant => ?_) fun e finish herror =>
        .inl (left (((Database.keeps_createGrant tickFree_framed fun _ _ => rfl).eq herror).trans
          hframed₄))
      have hframed₅ :=
        ((Database.keeps_createGrant tickFree_framed fun _ _ => rfl).eq hgrant).trans hframed₄
      refine Action.WP.mono (mints_of_issue _ _ (GrantRowOf agent req grantId) _ (fun minted => ?_)
        s₅) ?_
      · exact .then_keeps (stores_recordToken _ _ _ _ _ _) fun _ => .pure _
      · intro _ finish heffect
        rw [left hframed₅] at heffect
        obtain hkept | ⟨minted, hsign, hmints⟩ := heffect
        · exact .inl hkept
        · refine .inr ⟨agent, principal, grantId, s₅, minted, ⟨hframed₅, ⟨s₁, hagent⟩,
            ⟨ownerId, s₁, s₂, howner, hprincipal⟩, s₄.tick, ?_⟩, hsign, hmints⟩
          rw [(Database.createGrant_ok hgrant).1,
            show s₄.tape = s.tape from congrArg Prod.snd hframed₄]

end

end Patroclus
