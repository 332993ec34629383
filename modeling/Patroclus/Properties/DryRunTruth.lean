import Patroclus.Properties.DefaultDeny

/-!
# The truth of a dry run

The dry run evaluates the same policy as `request_access`, but it builds its context
by itself. It leaves out a session that the request does not name, where
`request_access` takes the agent's default session; it does not open a session that
does not exist yet; and it never looks at the delegation token. What it says holds of
the request exactly when what it leaves out would pass.
-/

namespace Patroclus

open Foundation

/-- Whatever the dry run answers, the request itself is answered with the same decision. -/
def DryRunTruthful (p : Platform) (req : AccessRequest) (s : Serving) : Prop :=
  ∀ response finish, checkAccess p (some req.agentId) req s = (.ok response, finish) →
    ∃ answer finish', requestAccess p (some req.agentId) req s = (.ok answer, finish') ∧
      answer.decision = response.decision

/-- The rule's conditions that the dry run leaves out: on the default session and its
window where no session is named, and on a new session where the named one does not
exist. -/
structure Rule.PassesUnrehearsed (rule : Rule) (app : AppState) (req : AccessRequest)
    (now : Instant) : Prop where
  unnamed : req.context.bind (·.sessionId) = none →
    rule.SessionAllows (app.sessionStore.sessionFor req) ∧
    rule.RateAllows app.sessionStore now (rateLimitKey req.sessionKey req.action req.resource)
  unopened : ∀ sessionId, req.context.bind (·.sessionId) = some sessionId →
    app.sessionStore.sessions.lookup sessionId = none →
      rule.SessionAllows (app.sessionStore.sessionFor req)

/-- What the dry run leaves out would pass, and the dates of the answer are in range. -/
structure DryRunHolds (p : Platform) (req : AccessRequest) (s : Serving) (now : Instant) :
    Prop where
  delegation : req.DelegationVerifies p s
  unrehearsed : ∀ rule : Rule, rule.Rehearses s.app req now → rule.decisionOf ≠ .deny →
    rule.PassesUnrehearsed s.app req now
  tokenExpiry : ∀ rule : Rule, rule.Decides s.app req now → rule.decision = "allow" →
    (now.addSeconds (asI64 p.config.defaultTtlSeconds)).isSome
  approvalExpiry : ∀ rule : Rule, rule.Decides s.app req now →
    rule.decision = "require_approval" → (now.addSeconds (asI64 300)).isSome

section

variable {p : Platform} {s finish : Serving} {req : AccessRequest} {rule rule' : Rule}
  {now : Instant}

/-- The dry run and what it leaves out are together what decides the request. -/
theorem Rule.decides_iff_rehearses : rule.Decides s.app req now ↔
    rule.Rehearses s.app req now ∧ rule.PassesUnrehearsed s.app req now := by
  constructor
  · intro h
    refine ⟨⟨h.agentAlive, h.first, ?_, ?_⟩, fun _ => ⟨h.session, h.rate⟩, fun _ _ _ => h.session⟩
    · intro sessionId hnamed state hlookup
      have hsession := h.session
      rw [SessionStore.sessionFor, AccessRequest.sessionKey_of_named hnamed, hlookup] at hsession
      exact hsession
    · intro sessionId hnamed
      have hrate := h.rate
      rw [AccessRequest.sessionKey_of_named hnamed] at hrate
      exact hrate
  · rintro ⟨h, hrest⟩
    cases hnamed : req.context.bind (·.sessionId) with
    | none =>
        obtain ⟨hsession, hrate⟩ := hrest.unnamed hnamed
        exact ⟨h.agentAlive, h.first, hsession, hrate⟩
    | some sessionId =>
        have hkey := AccessRequest.sessionKey_of_named hnamed
        refine ⟨h.agentAlive, h.first, ?_, hkey ▸ h.rate sessionId hnamed⟩
        cases hlookup : s.app.sessionStore.sessions.lookup sessionId with
        | none => exact hrest.unopened sessionId hnamed hlookup
        | some state =>
            rw [SessionStore.sessionFor, hkey, hlookup]
            exact h.session sessionId hnamed state hlookup

theorem Rule.Rehearses.unique (h : rule.Rehearses s.app req now)
    (h' : rule'.Rehearses s.app req now) : rule = rule' :=
  Rule.ComesFirstFor.unique h.first h'.first

theorem Decision.eq_deny_of_name {decision : Decision} (h : decision.name = "deny") :
    decision = .deny := by
  cases decision with
  | deny => rfl
  | allow => exact absurd h (by decide)
  | requireApproval approver reason => exact absurd h (by simp [Decision.name])

/-- Only a registered agent gets a dry run. -/
theorem checkAccess_registered {auth : Option Uuid} {response : CheckResponse}
    (run : checkAccess p auth req s = (.ok response, finish)) :
    s.app.db.agents.any (·.id == req.agentId) = true := by
  obtain ⟨-, agent, s₁, hagent, -⟩ := checkAccess_ok run
  obtain ⟨-, row, hrow, -⟩ := getAgent_eq_ok.mp hagent
  exact registered_of_find? hrow

/-- An answered request has carried out the decision of the rule that decides it. -/
theorem enacted_of_decides {auth : Option Uuid} {answer : AccessResponse}
    (run : requestAccess p auth req s = (.ok answer, finish)) (clock : ∀ n, s.tape.now n = now)
    (decides : rule.Decides s.app req now) : ∃ caller s₂ s₃, s₂.tape = s.tape ∧
      enactDecision p caller req (rule.evaluation req.requestedScopes) s₂ = (.ok answer, s₃) := by
  rcases requestAccess_eq_ok.mp run with ⟨caller, hresolved, hkilled, -⟩ |
    ⟨caller, hresolved, -, hstopped, -⟩ | ⟨caller, s₁, eval, s₂, s₃, h⟩
  · exact absurd ⟨rule, decides⟩ ((resolveCaller_found hresolved).not_decides (.inl hkilled))
  · exact absurd ⟨rule, decides⟩ ((resolveCaller_found hresolved).not_decides (.inr hstopped))
  · have hfound := resolveCaller_found h.resolved
    obtain ⟨heval, hfinish⟩ := evalEngine_eq_ok.mp h.evaluated
    rw [hfound.tape, clock, hfound.evaluate_of_decides decides] at heval
    refine ⟨caller, s₂, s₃, ?_, heval ▸ h.enacted⟩
    rw [hfinish]
    exact hfound.tape

theorem tokenExpiry_of_run {auth : Option Uuid} {answer : AccessResponse}
    (run : requestAccess p auth req s = (.ok answer, finish)) (clock : ∀ n, s.tape.now n = now)
    (decides : rule.Decides s.app req now) (allow : rule.decision = "allow") :
    (now.addSeconds (asI64 p.config.defaultTtlSeconds)).isSome := by
  obtain ⟨caller, s₂, s₃, htape, henacted⟩ := enacted_of_decides run clock decides
  have hallow : (rule.evaluation req.requestedScopes).decision = .allow :=
    Rule.decisionOf_eq_allow.mpr allow
  rw [enactDecision, hallow] at henacted
  obtain ⟨minted, expiresAt, row, hgranted⟩ := grantAccess_granted henacted
  obtain ⟨expiry, token, hexpiry, -, -⟩ := sign_eq_ok.mp hgranted.signed
  rw [htape, clock] at hexpiry
  exact Option.isSome_iff_exists.mpr ⟨expiry, hexpiry⟩

theorem approvalExpiry_of_run {auth : Option Uuid} {answer : AccessResponse}
    (run : requestAccess p auth req s = (.ok answer, finish)) (clock : ∀ n, s.tape.now n = now)
    (decides : rule.Decides s.app req now) (pending : rule.decision = "require_approval") :
    (now.addSeconds (asI64 300)).isSome := by
  obtain ⟨caller, s₂, s₃, htape, henacted⟩ := enacted_of_decides run clock decides
  obtain ⟨approver, reason, hpending⟩ := Rule.decisionOf_requireApproval.mpr pending
  have hpending : (rule.evaluation req.requestedScopes).decision =
      .requireApproval approver reason := hpending
  rw [enactDecision, hpending] at henacted
  obtain ⟨resource, s₄, hresource, henacted⟩ := Action.bind_ok_iff.mp henacted
  have htape₄ : s₄.tape = s.tape := by
    have hstill := ((Database.keeps_findResourceByUri tickFree_still req.resource).attempt).eq
      hresource
    exact (congrArg (·.2.2) hstill).trans htape
  obtain ⟨approval, s₅, happroval, -⟩ := Action.bind_ok_iff.mp henacted
  obtain ⟨id, s₆, hid, happroval⟩ := Action.bind_ok_iff.mp happroval
  cases hid
  obtain ⟨now', s₇, hnow, happroval⟩ := Action.bind_ok_iff.mp happroval
  cases hnow
  rw [Serving.next_tape, htape₄, clock] at happroval
  cases hexpiry : now.addSeconds (asI64 300) with
  | some expiresAt => rfl
  | none =>
      rw [hexpiry] at happroval
      exact absurd happroval raise_ne_ok

theorem DryRunTruthful.holds (h : DryRunTruthful p req s) (unfailing : Unfailing p s)
    (clock : ∀ n, s.tape.now n = now)
    (registered : s.app.db.agents.any (·.id == req.agentId) = true) :
    DryRunHolds p req s now := by
  obtain ⟨response, finish, hcheck⟩ := checkAccess_returns (p := p) unfailing.faults registered
  obtain ⟨answer, finish', hrun, hsame⟩ := h response finish hcheck
  obtain ⟨caller, s₁, hresolved⟩ := requestAccess_resolved hrun
  refine ⟨(resolves_of_run hresolved).delegation, ?_, fun rule hdecides hallow =>
    tokenExpiry_of_run hrun clock hdecides hallow, fun rule hdecides hpending =>
    approvalExpiry_of_run hrun clock hdecides hpending⟩
  intro rule hrehearses hdecision
  have hresponse : response.decision = rule.decisionOf.name := by
    obtain ⟨rule', hrehearses', heq⟩ | ⟨hnone, -⟩ := checkAccess_decided clock hcheck
    · rw [heq, hrehearses'.unique hrehearses]
    · exact absurd ⟨rule, hrehearses⟩ hnone
  obtain ⟨rule', hdecides, -⟩ | ⟨-, hdeny⟩ := requestAccess_decided clock hrun
  · obtain ⟨hrehearses', hpasses⟩ := Rule.decides_iff_rehearses.mp hdecides
    rwa [hrehearses'.unique hrehearses] at hpasses
  · rw [hsame, hresponse] at hdeny
    exact absurd (Decision.eq_deny_of_name hdeny) hdecision

theorem DryRunHolds.truthful (h : DryRunHolds p req s now) (unfailing : Unfailing p s)
    (clock : ∀ n, s.tape.now n = now)
    (registered : s.app.db.agents.any (·.id == req.agentId) = true) : DryRunTruthful p req s := by
  intro response finish hcheck
  obtain ⟨answer, finish', hrun⟩ := requestAccess_returns unfailing
    ⟨rfl, registered, h.delegation⟩ clock h.tokenExpiry h.approvalExpiry
  refine ⟨answer, finish', hrun, ?_⟩
  have hanswer := requestAccess_decided clock hrun
  obtain ⟨rule, hrehearses, hresponse⟩ | ⟨hnone, hresponse⟩ := checkAccess_decided clock hcheck
  · obtain ⟨rule', hdecides, heq⟩ | ⟨hnone, hdeny⟩ := hanswer
    · rw [heq, hresponse, (Rule.decides_iff_rehearses.mp hdecides).1.unique hrehearses]
    · have hdecision : rule.decisionOf = .deny := by
        by_contra hne
        exact hnone ⟨rule, Rule.decides_iff_rehearses.mpr
          ⟨hrehearses, h.unrehearsed rule hrehearses hne⟩⟩
      rw [hdeny, hresponse, hdecision]
      rfl
  · obtain ⟨rule, hdecides, -⟩ | ⟨-, hdeny⟩ := hanswer
    · exact absurd ⟨rule, (Rule.decides_iff_rehearses.mp hdecides).1⟩ hnone
    · rw [hdeny, hresponse]

/-- When nothing outside fails and the clock stands still, a dry run tells the truth
exactly if what it leaves out would pass. -/
theorem dryRunTruthful_iff (unfailing : Unfailing p s) (clock : ∀ n, s.tape.now n = now) :
    DryRunTruthful p req s ↔ (s.app.db.agents.any (·.id == req.agentId) = true →
      DryRunHolds p req s now) := by
  refine ⟨fun h registered => h.holds unfailing clock registered, fun h => ?_⟩
  intro response finish hcheck
  have hregistered := checkAccess_registered hcheck
  exact (h hregistered).truthful unfailing clock hregistered response finish hcheck

end

/-- A server with one agent and one rule. -/
def servingRule (rule : Rule) : Serving :=
  { allowingServing with app := { allowingServing.app with policyEngine := ⟨[rule]⟩ } }

theorem servingRule_unfailing (rule : Rule) : Unfailing signingPlatform (servingRule rule) where
  faults _ := rfl
  freshToken _ := rfl
  freshApproval _ := rfl
  signs := Jwt.signingAll_signs

theorem dryRunTruthful_allowing :
    DryRunTruthful signingPlatform readRequest (servingRule (.plain "allow" "test")) := by
  have htoken : (Instant.addSeconds 0 (asI64 900)).isSome = true := by decide
  have happroval : (Instant.addSeconds 0 (asI64 300)).isSome = true := by decide
  refine (dryRunTruthful_iff (servingRule_unfailing _) fun _ => rfl).mpr fun _ =>
    ⟨nofun, fun rule hrehearses _ => ?_, fun _ _ _ => htoken, fun _ _ _ => happroval⟩
  obtain ⟨row, -, hfirst⟩ := hrehearses.first
  rw [Rule.ComesFirst.eq_of_singleton hfirst]
  exact ⟨fun _ => ⟨⟨rfl, nofun, nofun, nofun, nofun⟩, nofun⟩, nofun⟩

/-- A rule that allows an action only after another. -/
def afterLogin : Rule := { Rule.plain "allow" "test" with requirePriorAction := some "login" }

/-- A truthful dry run, as a promise about every request and every state. -/
def DryRunsTruthful (p : Platform) : Prop :=
  ∀ (req : AccessRequest) (s : Serving) (now : Instant), Unfailing p s →
    (∀ n, s.tape.now n = now) → DryRunTruthful p req s

/-- The dry run of a request that names no session is not asked for the prior action. -/
theorem not_dryRunsTruthful : ¬ DryRunsTruthful signingPlatform := by
  intro h
  have hunfailing := servingRule_unfailing afterLogin
  have htruthful := h readRequest _ opening hunfailing fun _ => rfl
  have hholds := htruthful.holds hunfailing (fun _ => rfl) rfl
  have hrehearses : afterLogin.Rehearses (servingRule afterLogin).app readRequest opening := by
    refine ⟨by decide, ⟨registeredAgent, rfl, ⟨.inl rfl, .inl rfl, .inl rfl, .inl rfl⟩, [], [], rfl,
      nofun⟩, nofun, nofun⟩
  obtain ⟨hsession, -⟩ := (hholds.unrehearsed afterLogin hrehearses (by decide)).unnamed rfl
  obtain ⟨event, hevent, -⟩ := hsession.prior "login" rfl
  cases hevent

end Patroclus
