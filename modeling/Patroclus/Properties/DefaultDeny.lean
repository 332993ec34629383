import Patroclus.Api.Answer
import Patroclus.Token.Codec

/-!
# Default deny

When nothing outside the program fails, every access request of a registered
agent is answered, and the answer is that of the one rule that decides the
request: a token if the rule allows it, an approval request if the rule asks for
one, and a denial otherwise. The database gets a row for what was returned, and
no other.
-/

namespace Patroclus

open Foundation

/-- Nothing outside the program fails during a call: the agent is registered, a
delegation token that is presented verifies, no statement fails, drawn ids are new,
dates stay in range, and the codec signs. -/
structure Undisturbed (p : Platform) (req : AccessRequest) (s : Serving) : Prop where
  registered : s.app.db.agents.any (·.id == req.agentId) = true
  delegation : ∀ token, req.delegationToken = some token → ∃ claims, TokenVerifier.verify p
    s.app.jtiStore (s.tape.now (s.tick + 3)) (s.tape.now (s.tick + 4)) token
      (some (agentAudience req.agentId)) = .ok claims
  faults : ∀ n, s.tape.fault n = none
  freshToken : ∀ n, s.app.db.tokens.any (·.id == (s.tape.uuid n).toString) = false
  freshApproval : ∀ n, s.app.db.approvalRequests.any (·.id == s.tape.uuid n) = false
  tokenExpiry : ∀ n, ((s.tape.now n).addSeconds (asI64 p.config.defaultTtlSeconds)).isSome
  approvalExpiry : ∀ n, ((s.tape.now n).addSeconds (asI64 300)).isSome
  signs : ∀ claims, ∃ token, p.jwt.encode claims = .ok token

/-- The answer to a request, and the rows added with it, by the rule that decides it. -/
structure DefaultDeny (p : Platform) (req : AccessRequest) (s : Serving) (now : Instant)
    (response : AccessResponse) (finish : Serving) : Prop where
  token : response.token ≠ none ↔
    ∃ rule : Rule, rule.Decides s.app req now ∧ rule.decision = "allow"
  tokenRows : ∃ rows, finish.app.db.tokens = s.app.db.tokens ++ rows ∧
    rows.map (fun row => (row.id, row.scopes)) =
      (response.token.map fun info => (info.jti, info.scopes)).toList
  scopes : ∀ (rule : Rule) (info : IssuedTokenInfo), rule.Decides s.app req now →
    response.token = some info →
      info.scopes = (req.requestedScopes.filter fun scope =>
        rule.scopes.isEmpty || rule.admitsScope scope) ∧
      ∃ claims, p.jwt.payload info.jwt = some claims ∧ claims.scope = joinScopes info.scopes
  approval : response.approval ≠ none ↔
    ∃ rule : Rule, rule.Decides s.app req now ∧ rule.decision = "require_approval"
  approvalRows : ∃ rows, finish.app.db.approvalRequests = s.app.db.approvalRequests ++ rows ∧
    rows.map (·.id) = (response.approval.map (·.requestId)).toList
  decision : response.token = none → response.approval = none → response.decision = "deny"

section

variable {p : Platform} {req : AccessRequest} {s : Serving}

theorem Rule.approvedScopes_eq_filter {rule : Rule} {requested : List String} :
    rule.approvedScopes requested = requested.filter fun scope =>
      rule.scopes.isEmpty || rule.admitsScope scope := by
  rw [Rule.approvedScopes]
  cases rule.scopes.isEmpty with
  | false => simp
  | true => simp

/-! ## The steps of a call -/

theorem Undisturbed.resolves (h : Undisturbed p req s) :
    (resolveCaller p (some req.agentId) req).Returns (fun caller s₁ =>
      CallerFound p req s caller s₁) s :=
  Resolves.returns ⟨rfl, h.registered, h.delegation⟩ h.faults

section

variable {caller : Caller} {s₂ : Serving}

theorem Undisturbed.unfailing (h : Undisturbed p req s) (tape : s₂.tape = s.tape)
    (db : s₂.app.db = s.app.db) : Unfailing p s₂ where
  faults := fun n => by simpa [tape] using h.faults n
  freshToken := fun n => by simpa [tape, db] using h.freshToken n
  freshApproval := fun n => by simpa [tape, db] using h.freshApproval n
  signs := h.signs

/-- The access token can be signed and recorded. -/
theorem Undisturbed.grants (h : Undisturbed p req s) (id : caller.agent.id = req.agentId)
    (tape : s₂.tape = s.tape) (db : s₂.app.db = s.app.db) (eval : PolicyEvaluation) :
    (grantAccess p caller req eval).Returns (fun _ finish => finish.tape = s.tape) s₂ := by
  rw [← tape]
  refine grantAccess_returns (h.unfailing tape db) ?_ (fun n => ?_) eval
  · simpa [db, id] using h.registered
  · simpa [tape] using h.tokenExpiry n

/-- The approval request can be filed. -/
theorem Undisturbed.files (h : Undisturbed p req s) (id : caller.agent.id = req.agentId)
    (tape : s₂.tape = s.tape) (db : s₂.app.db = s.app.db) (eval : PolicyEvaluation) :
    (requestApproval p caller req eval).Returns (fun response finish => ∃ row,
      response = { AccessResponse.ofEvaluation eval with approval := some ⟨row.id, "pending"⟩ } ∧
      finish.still = (s₂.withDb { s₂.app.db with
        approvalRequests := s₂.app.db.approvalRequests ++ [row] }).still) s₂ := by
  refine requestApproval_returns (h.unfailing tape db) ?_ (fun n => ?_) eval
  · simpa [db, id] using h.registered
  · simpa [tape] using h.approvalExpiry n

end

/-! ## The answer -/

/-- A request that no rule lets through is answered with a denial. -/
theorem DefaultDeny.of_denied {now : Instant} {response : AccessResponse} {finish : Serving}
    (allow : ¬ ∃ rule : Rule, rule.Decides s.app req now ∧ rule.decision = "allow")
    (pending : ¬ ∃ rule : Rule, rule.Decides s.app req now ∧ rule.decision = "require_approval")
    (token : response.token = none) (approval : response.approval = none)
    (decision : response.decision = "deny") (tokens : finish.app.db.tokens = s.app.db.tokens)
    (approvals : finish.app.db.approvalRequests = s.app.db.approvalRequests) :
    DefaultDeny p req s now response finish where
  token := iff_of_false (not_not_intro token) allow
  tokenRows := ⟨[], by rw [tokens, List.append_nil], by rw [token]; rfl⟩
  scopes := by
    intro rule info _ hinfo
    rw [token] at hinfo
    cases hinfo
  approval := iff_of_false (not_not_intro approval) pending
  approvalRows := ⟨[], by rw [approvals, List.append_nil], by rw [approval]; rfl⟩
  decision := fun _ _ => decision

section

variable {caller : Caller} {s₁ : Serving} {now : Instant}

/-- No rule of any word decides for a stopped session or agent. -/
theorem CallerFound.not_decides_as (h : CallerFound p req s caller s₁)
    (stopped : caller.session.killed = true ∨
      caller.agent.id ∈ s₁.app.sessionStore.killedAgents) {decision : String} :
    ¬ ∃ rule : Rule, rule.Decides s.app req now ∧ rule.decision = decision :=
  fun ⟨rule, hdecides, _⟩ => h.not_decides stopped ⟨rule, hdecides⟩

/-- For a living caller the engine's decision is that of the deciding rule. -/
theorem CallerFound.exists_decides_iff (h : CallerFound p req s caller s₁)
    (alive : caller.agent.id ∉ s₁.app.sessionStore.killedAgents) (decision : Decision → Prop)
    {decided : Rule → Prop} (agrees : ∀ rule, decision rule.decisionOf ↔ decided rule)
    (deny : ¬ decision .deny) :
    (∃ rule : Rule, rule.Decides s.app req now ∧ decided rule) ↔
      decision (s₁.app.policyEngine.evaluate s₁.app.sessionStore now
        (caller.context req)).1.decision := by
  constructor
  · rintro ⟨rule, hdecides, hdecided⟩
    rw [h.evaluate_of_decides hdecides]
    exact (agrees rule).mpr hdecided
  · intro hdecision
    obtain ⟨rule, hdecides, hrule⟩ := h.decides_of_ne_deny alive fun hdeny =>
      deny (hdeny ▸ hdecision)
    rw [hrule] at hdecision
    exact ⟨rule, hdecides, (agrees rule).mp hdecision⟩

/-- Carrying out the evaluation gives the answer of the deciding rule. -/
theorem CallerFound.enacts (hfound : CallerFound p req s caller s₁) (h : Undisturbed p req s)
    (alive : caller.agent.id ∉ s₁.app.sessionStore.killedAgents) {eval : PolicyEvaluation}
    {s₂ : Serving} (evaluated : eval = (s₁.app.policyEngine.evaluate s₁.app.sessionStore now
      (caller.context req)).1) (tape : s₂.tape = s.tape) (db : s₂.app.db = s.app.db) :
    (enactDecision p caller req eval).Returns (fun response s₃ =>
      s₃.tape = s.tape ∧ DefaultDeny p req s now response s₃) s₂ := by
  have hallow : (∃ rule : Rule, rule.Decides s.app req now ∧ rule.decision = "allow") ↔
      eval.decision = .allow := by
    rw [evaluated]
    exact hfound.exists_decides_iff alive (· = .allow) (fun _ => Rule.decisionOf_eq_allow) nofun
  have hpending : (∃ rule : Rule, rule.Decides s.app req now ∧
      rule.decision = "require_approval") ↔ ∃ approver reason, eval.decision =
        .requireApproval approver reason := by
    rw [evaluated]
    exact hfound.exists_decides_iff alive
      (fun decision => ∃ approver reason, decision = .requireApproval approver reason)
      (fun _ => Rule.decisionOf_requireApproval) nofun
  unfold enactDecision
  cases hdecision : eval.decision with
  | deny =>
      rw [hdecision] at hallow hpending
      refine .pure ⟨tape, .of_denied (fun h => nomatch hallow.mp h)
        (fun h => nomatch hpending.mp h) rfl ?_ ?_ (by rw [db]) (by rw [db])⟩
      · rw [AccessResponse.ofEvaluation, hdecision]
      · rw [AccessResponse.ofEvaluation, hdecision]
        rfl
  | requireApproval approver reason =>
      rw [hdecision] at hallow hpending
      refine (h.files hfound.agentId tape db eval).mono ?_
      rintro _ s₃ ⟨row, rfl, hstill⟩
      have happ : s₃.app = _ := congrArg Prod.fst hstill
      refine ⟨(congrArg (·.2.2) hstill).trans tape, ?_⟩
      exact {
        token := iff_of_false (not_not_intro rfl) fun h => nomatch hallow.mp h
        tokenRows := ⟨[], by rw [happ, List.append_nil, ← db]; rfl, rfl⟩
        scopes := by
          intro rule info _ hinfo
          cases hinfo
        approval := iff_of_true nofun (hpending.mpr ⟨approver, reason, rfl⟩)
        approvalRows := ⟨[row], by rw [happ, ← db]; rfl, rfl⟩
        decision := nofun }
  | allow =>
      rw [hdecision] at hallow hpending
      obtain ⟨response, s₃, hrun, htape⟩ := h.grants hfound.agentId tape db eval
      obtain ⟨minted, expiresAt, row, hgranted⟩ := grantAccess_granted hrun
      have happroval : response.approval = none := by
        rw [hgranted.response_eq, AccessResponse.ofEvaluation, hdecision]
      refine .of_run hrun ⟨htape, ?_⟩
      exact {
        token := iff_of_true (by rw [hgranted.response_eq]; nofun) (hallow.mpr rfl)
        tokenRows := ⟨[row], by rw [hgranted.app, db], by
          rw [hgranted.response_eq, List.map_singleton, hgranted.stored.id, hgranted.stored.scopes]
          rfl⟩
        scopes := by
          intro rule info hdecides hinfo
          rw [hgranted.response_eq] at hinfo
          cases hinfo
          have hsigned := sign_signed hgranted.signed
          obtain ⟨iat, exp, jti, hclaims⟩ := hsigned.claims
          refine ⟨?_, minted.claims, hsigned.payload, by rw [hclaims]; rfl⟩
          rw [evaluated, hfound.evaluate_of_decides hdecides, ← Rule.approvedScopes_eq_filter]
          rfl
        approval := iff_of_false (not_not_intro happroval) fun h => nomatch hpending.mp h
        approvalRows := ⟨[], by rw [hgranted.app, List.append_nil, db], by rw [happroval]; rfl⟩
        decision := by
          intro htoken
          rw [hgranted.response_eq] at htoken
          cases htoken }

/-- The records kept of a decision touch neither tokens nor approvals. -/
theorem DefaultDeny.of_recorded {response : AccessResponse} {s₃ finish : Serving}
    (h : DefaultDeny p req s now response s₃) (tokens : finish.app.db.tokens = s₃.app.db.tokens)
    (approvals : finish.app.db.approvalRequests = s₃.app.db.approvalRequests) :
    DefaultDeny p req s now response finish :=
  { h with
    tokenRows := by rw [tokens]; exact h.tokenRows
    approvalRows := by rw [approvals]; exact h.approvalRows }

end

/-- Every request of a registered agent that nothing outside disturbs is answered by the
rule that decides it, and denied if there is none. -/
theorem requestAccess_defaultDeny (h : Undisturbed p req s) :
    ∃ (n : Nat) (response : AccessResponse) (finish : Serving),
      requestAccess p (some req.agentId) req s = (.ok response, finish) ∧
      DefaultDeny p req s (s.tape.now n) response finish := by
  obtain ⟨caller, s₁, hresolved, hfound⟩ := h.resolves
  have hdb : s₁.app.db = s.app.db := by
    obtain ⟨now, -, happ⟩ := hfound.session
    rw [happ]
  refine ⟨s₁.tick, ?_⟩
  cases hsession : caller.session.killed with
  | true =>
      exact ⟨sessionKilledResponse, s₁, requestAccess_eq_ok.mpr (.inl ⟨caller, hresolved, hsession,
        rfl⟩), .of_denied (hfound.not_decides_as (.inl hsession))
        (hfound.not_decides_as (.inl hsession))
          rfl rfl rfl (by rw [hdb]) (by rw [hdb])⟩
  | false =>
      by_cases hagent : caller.agent.id ∈ s₁.app.sessionStore.killedAgents
      · exact ⟨agentKilledResponse, s₁, requestAccess_eq_ok.mpr (.inr (.inl ⟨caller, hresolved,
          hsession, hagent, rfl⟩)), .of_denied (hfound.not_decides_as (.inr hagent))
            (hfound.not_decides_as (.inr hagent)) rfl rfl rfl (by rw [hdb]) (by rw [hdb])⟩
      · obtain ⟨eval, s₂, hrun⟩ : ∃ eval s₂, evalEngine (caller.context req) s₁ = (.ok eval, s₂) :=
          ⟨_, _, rfl⟩
        obtain ⟨heval, hfinish⟩ := evalEngine_eq_ok.mp hrun
        rw [hfound.tape] at heval
        have htape : s₂.tape = s.tape := by
          rw [hfinish]
          exact hfound.tape
        have hdb : s₂.app.db = s.app.db := by
          rw [hfinish]
          exact hdb
        obtain ⟨response, s₃, henacted, htape, hanswer⟩ := hfound.enacts h hagent heval htape hdb
        have hfaults : ∀ n, s₃.tape.fault n = none := by
          rw [htape]
          exact h.faults
        obtain ⟨_, finish, hrecorded, htokens, happrovals⟩ := recordDecision_returns _ hfaults
        exact ⟨response, finish, requestAccess_eq_ok.mpr (.inr (.inr ⟨caller, s₁, eval, s₂, s₃,
          hresolved, hsession, hagent, hrun, henacted, hrecorded⟩)),
            hanswer.of_recorded htokens happrovals⟩

end

noncomputable def signingPlatform : Platform :=
  .concrete .signingAll (parseKnown denyByDefault [])

/-- A server that allows everything to the one agent it knows. -/
def allowingServing : Serving where
  app := ⟨{ Db.empty with agents := [registeredAgent] }, ⟨[.plain "allow" "test"]⟩, ∅, .new⟩
  ledger := []
  tape := .steady opening 600
  tick := 0

def readRequest : AccessRequest := ⟨⟨300⟩, "read", "db", ["db:read"], none, none⟩

theorem requestAccess_defaultDeny_allowing :
    ∃ (n : Nat) (response : AccessResponse) (finish : Serving),
      requestAccess signingPlatform (some ⟨300⟩) readRequest allowingServing =
        (.ok response, finish) ∧
      DefaultDeny signingPlatform readRequest allowingServing (allowingServing.tape.now n) response
        finish := by
  have htoken : (opening.addSeconds (asI64 900)).isSome = true := by decide
  have happroval : (opening.addSeconds (asI64 300)).isSome = true := by decide
  have hundisturbed : Undisturbed signingPlatform readRequest allowingServing := {
    registered := by decide
    delegation := nofun
    faults := fun _ => rfl
    freshToken := fun _ => rfl
    freshApproval := fun _ => rfl
    tokenExpiry := fun _ => htoken
    approvalExpiry := fun _ => happroval
    signs := Jwt.signingAll_signs }
  exact requestAccess_defaultDeny hundisturbed

end Patroclus
