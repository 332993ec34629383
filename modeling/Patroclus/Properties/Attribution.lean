import Patroclus.Api.Decision
import Patroclus.Api.Federation
import Patroclus.Properties.DelegationChain

/-!
# Attribution to the principal

A root grant names its principal as `user:` and the email, and the subject stays the same
along every chain. When a token of the chain is presented, the email is read back from the
subject by dropping every `user:`, and the first principal with that email is taken. So the
access token keeps the subject and the log names the principal exactly if the email contains
no `user:` itself, the principal is the first with its email, and the lookup does not fail.
-/

namespace Patroclus

open Foundation

/-- The chain begins with a grant of this principal: the owner of the agent when the grant
was made. -/
def DelegationChain.RootedAt {p : Platform} (chain : DelegationChain p) (principal : PrincipalRow) :
    Prop :=
  ∃ s response finish agent, principalDelegate p chain.grant s = (.ok response, finish) ∧
    response.delegationToken = chain.token 0 ∧
    s.app.db.agents.find? (·.id == chain.grant.agentId) = some agent ∧
    agent.ownerId = some principal.id ∧
    s.app.db.principals.find? (·.id == principal.id) = some principal

/-- An issued token has the subject of the token that was presented for it, and the log names
the principal. -/
structure Attributed (p : Platform) (presented : AgentClaims) (principal : PrincipalRow)
    (info : IssuedTokenInfo) (s finish : Serving) : Prop where
  subject : ∃ claims, p.jwt.payload info.jwt = some claims ∧ claims.sub = presented.sub
  audit : ∃ row, finish.app.db.auditLog = s.app.db.auditLog ++ [row] ∧
    row.principalId = some principal.id.toString

/-- The state in which a request looks up the principal of a delegation token: the agent has
been read and the token verified. -/
def Serving.verified (s : Serving) : Serving := s.next.next.next.next.next

/-- The email says who the principal is: it contains no `user:`, nobody else was registered
under it before, and the statement that looks it up does not fail. -/
structure PrincipalRow.Recoverable (principal : PrincipalRow) (s : Serving) : Prop where
  plain : ¬ MentionsUser principal.email
  first : (s.app.db.principals.find? (·.email == principal.email)).map (·.id) = some principal.id
  answered : s.tape.fault (s.tick + 5) = none

section

variable {p : Platform} {s finish : Serving}

/-! ## What the request makes of the subject -/

/-- The subject of a token for the agent of a request, by the principal that was found. -/
def subjectFor (found : Option PrincipalRow) (agentId : Uuid) : String :=
  (found.map fun row => "user:" ++ row.email).getD (agentAudience agentId)

/-- The principal of a presented token is looked up by what its subject leaves. -/
theorem resolveCaller_principal {auth : Option Uuid} {req : AccessRequest} {caller : Caller}
    {token : String} (presents : req.delegationToken = some token)
    (run : resolveCaller p auth req s = (.ok caller, finish)) :
    ∃ claims now, p.jwt.payload token = some claims ∧ caller.agent.id = req.agentId ∧
      caller.principal = (s.verified.emailRow (withoutUserPrefix claims.sub)).map
        (Database.principalOfRow p · now) := by
  obtain ⟨-, agent, s₁, principal, chain, s₂, session, hagent, hprincipal, -, rfl⟩ :=
    resolveCaller_eq_ok.mp run
  have hid := getAgent_id hagent
  obtain ⟨-, row, -, -, rfl⟩ := getAgent_eq_ok.mp hagent
  rw [requestPrincipal, presents] at hprincipal
  obtain ⟨claims, s₃, hverify, hlookup⟩ := Action.bind_ok_iff.mp hprincipal
  obtain ⟨hverified, rfl⟩ := verifyToken_eq_ok.mp hverify
  obtain ⟨found, s₄, hfound, hpure⟩ := Action.bind_ok_iff.mp hlookup
  cases hpure
  refine ⟨claims, s.tape.now (s.tick + 6), TokenVerifier.verify_claims hverified, hid, ?_⟩
  show principal = (s.verified.emailRow _).map _
  cases hrow : s.verified.emailRow (withoutUserPrefix claims.sub) with
  | none =>
      have hmissed := getPrincipalByEmail_missed (p := p) hrow
      exact (Except.ok.inj (Prod.mk.inj (hfound.symm.trans hmissed)).1)
  | some row =>
      have hread := getPrincipalByEmail_found (p := p) hrow
      exact (Except.ok.inj (Prod.mk.inj (hfound.symm.trans hread)).1)

/-- The record of a decision names the caller's principal. -/
theorem recordDecision_principal {caller : Caller} {req : AccessRequest} {eval : PolicyEvaluation}
    {response : AccessResponse}
    (run : recordDecision p caller req eval response s = (.ok (), finish)) :
    ∃ row : AuditRow, row.principalId = caller.principal.map (·.id.toString) ∧
      finish.app.db.auditLog = s.app.db.auditLog ++ [row] := by
  obtain ⟨timestamp, s₁, htimestamp, run⟩ := Action.bind_ok_iff.mp run
  cases htimestamp
  obtain ⟨now, s₂, hnow, run⟩ := Action.bind_ok_iff.mp run
  cases hnow
  obtain ⟨_, s₃, hsession, run⟩ := Action.bind_ok_iff.mp run
  cases hsession
  obtain ⟨audit, s₄, haudit, run⟩ := Action.bind_ok_iff.mp run
  cases run
  obtain ⟨row, hprincipal, hlog⟩ := Database.createAuditEntry_ok haudit
  exact ⟨row, by rw [hprincipal, Option.map_map]; rfl, hlog⟩

/-- What a request that presents a token signs and logs, by the row that it finds. -/
theorem requestAccess_attributes {auth : Option Uuid} {req : AccessRequest}
    {response : AccessResponse} {info : IssuedTokenInfo} {token : String}
    (run : requestAccess p auth req s = (.ok response, finish))
    (issued : response.token = some info) (presents : req.delegationToken = some token) :
    ∃ presented claims row, p.jwt.payload token = some presented ∧
      p.jwt.payload info.jwt = some claims ∧
      claims.sub = subjectFor (s.verified.emailRow (withoutUserPrefix presented.sub)) req.agentId ∧
      finish.app.db.auditLog = s.app.db.auditLog ++ [row] ∧ row.principalId =
        (s.verified.emailRow (withoutUserPrefix presented.sub)).map (·.id.toString) := by
  obtain ⟨caller, -, -, rfl⟩ | ⟨caller, -, -, -, rfl⟩ | ⟨caller, s₁, eval, s₂, s₃, hdecided⟩ :=
    requestAccess_eq_ok.mp run
  · cases issued
  · cases issued
  · obtain ⟨presented, now, hpresented, hid, hprincipal⟩ :=
      resolveCaller_principal presents hdecided.resolved
    have hissued : response.token ≠ none := by
      rw [issued]
      exact Option.some_ne_none _
    have hallow := enactDecision_token hdecided.enacted hissued
    have henacted := hdecided.enacted
    rw [enactDecision, hallow] at henacted
    obtain ⟨minted, expiresAt, tokenRow, hgranted⟩ := grantAccess_granted henacted
    have hsigned := sign_signed hgranted.signed
    obtain ⟨iat, exp, jti, hclaims⟩ := hsigned.claims
    have hjwt : minted.token = info.jwt := by
      rw [hgranted.response_eq] at issued
      exact congrArg IssuedTokenInfo.jwt (Option.some.inj issued)
    obtain ⟨row, hrow, hlog⟩ := recordDecision_principal hdecided.recorded
    refine ⟨presented, minted.claims, row, hpresented, hjwt ▸ hsigned.payload, ?_, ?_, ?_⟩
    · have hsubject : minted.claims.sub = (caller.tokenParams p req eval).subject := by
        rw [hclaims]
        rfl
      rw [hsubject, Caller.tokenParams, hid, hprincipal, Option.map_map]
      rfl
    · obtain ⟨-, rfl⟩ := evalEngine_eq_ok.mp hdecided.evaluated
      have hdb : s₁.app.db = s.app.db := (resolveCaller_found hdecided.resolved).db
      rw [hlog, hgranted.app]
      show s₁.app.db.auditLog ++ [row] = _
      rw [hdb]
    · rw [hrow, hprincipal, Option.map_map]
      rfl

/-! ## What a chain hands over -/

/-- A root grant carries the email of the agent's owner. -/
theorem principalDelegate_subject {req : PrincipalDelegateRequest}
    {response : PrincipalDelegateResponse} {agent : AgentRow} {principal : PrincipalRow}
    (run : principalDelegate p req s = (.ok response, finish))
    (found : s.app.db.agents.find? (·.id == req.agentId) = some agent)
    (owner : agent.ownerId = some principal.id)
    (registered : s.app.db.principals.find? (·.id == principal.id) = some principal) :
    ∃ claims, p.jwt.payload response.delegationToken = some claims ∧
      claims.sub = "user:" ++ principal.email := by
  obtain ⟨caller, s₁, hagent, run⟩ := Action.bind_ok_iff.mp run
  obtain ⟨-, row, hrow, rfl, rfl⟩ := getAgent_eq_ok.mp hagent
  rw [found] at hrow
  cases hrow
  have howner : (agentOfRow p agent (s.tape.now (s.tick + 1))
    (s.tape.now (s.tick + 2))).ownerId = some principal.id := owner
  rw [howner] at run
  obtain ⟨read, s₂, hprincipal, run⟩ := Action.bind_ok_iff.mp run
  obtain ⟨-, row, hrow, rfl, -⟩ := Database.getPrincipal_eq_ok.mp hprincipal
  have hsame : row = principal := Option.some.inj (hrow.symm.trans registered)
  obtain ⟨now, s₃, -, run⟩ := Action.bind_ok_iff.mp run
  obtain ⟨expiresAt, s₄, -, run⟩ := Action.bind_ok_iff.mp run
  obtain ⟨grantId, s₅, -, run⟩ := Action.bind_ok_iff.mp run
  obtain ⟨result, s₆, hissue, run⟩ := Action.bind_ok_iff.mp run
  obtain ⟨minted, hsign, rfl, -⟩ := issue_eq_ok.mp hissue
  obtain ⟨_, s₇, -, run⟩ := Action.bind_ok_iff.mp run
  have hsigned := sign_signed hsign
  obtain ⟨iat, exp, jti, hclaims⟩ := hsigned.claims
  rw [← Except.ok.inj (Prod.mk.inj run).1]
  exact ⟨minted.claims, hsigned.payload, by rw [hclaims, ← hsame]; rfl⟩

/-- Every token of a chain carries the email of the principal that it is rooted at. -/
theorem DelegationChain.RootedAt.subject {chain : DelegationChain p} {principal : PrincipalRow}
    (rooted : chain.RootedAt principal) {i : Nat} (hi : i ≤ chain.length) :
    (chain.claims i).sub = "user:" ++ principal.email := by
  induction i with
  | zero =>
      obtain ⟨s, response, finish, agent, run, token, found, owner, registered⟩ := rooted
      obtain ⟨claims, hpayload, hsubject⟩ := principalDelegate_subject run found owner registered
      rw [token, chain.signed 0 hi] at hpayload
      rw [Option.some.inj hpayload, hsubject]
  | succ i ih => rw [(chain.narrows hi).subject, ih (Nat.le_of_lt hi)]

/-! ## The round trip -/

theorem Serving.emailRow_eq_some {email : String} {row : PrincipalRow} :
    s.emailRow email = some row ↔
      s.tape.fault s.tick = none ∧ s.app.db.principals.find? (·.email == email) = some row := by
  rw [emailRow]
  split
  · rename_i hfault
    exact (and_iff_right hfault).symm
  · rename_i hfault
    exact iff_of_false (Option.some_ne_none row ∘ Eq.symm) fun h => hfault h.1

theorem email_of_find? {rows : List PrincipalRow} {email : String} {row : PrincipalRow}
    (h : rows.find? (·.email == email) = some row) : row.email = email := by
  have hemail := List.find?_some h
  exact beq_iff_eq.mp hemail

/-- The principal is read back from the subject exactly if the email says who it is. -/
theorem readsBack_iff {principal : PrincipalRow} {agentId : Uuid} {found : Option PrincipalRow}
    (lookup : s.verified.emailRow (withoutUserPrefix ("user:" ++ principal.email)) = found) :
    subjectFor found agentId = "user:" ++ principal.email ∧
        found.map (·.id.toString) = some principal.id.toString ↔ principal.Recoverable s := by
  constructor
  · rintro ⟨hsubject, hid⟩
    obtain ⟨row, rfl, hsame⟩ := Option.map_eq_some_iff.mp hid
    obtain ⟨hfault, hfind⟩ := Serving.emailRow_eq_some.mp lookup
    have hread := email_of_find? hfind
    have hsubject : "user:" ++ row.email = "user:" ++ principal.email := hsubject
    have hemail : row.email = principal.email := (String.append_right_inj "user:").mp hsubject
    rw [← hread, hemail] at hfind
    refine ⟨(withoutUserPrefix_append_eq_iff _).mp (hread.symm.trans hemail), ?_, hfault⟩
    show (s.verified.app.db.principals.find? _).map _ = _
    rw [hfind, Option.map_some, Uuid.toString_injective hsame]
  · rintro ⟨hplain, hfirst, hanswered⟩
    rw [(withoutUserPrefix_append_eq_iff _).mpr hplain] at lookup
    obtain ⟨row, hfind, hid⟩ := Option.map_eq_some_iff.mp hfirst
    have hfound : s.verified.emailRow principal.email = some row :=
      Serving.emailRow_eq_some.mpr ⟨hanswered, hfind⟩
    have hemail := email_of_find? hfind
    rw [hfound] at lookup
    subst lookup
    exact ⟨congrArg ("user:" ++ ·) hemail, congrArg (fun id : Uuid => some id.toString) hid⟩

/-- An access token for a token of a chain is attributed to the principal at its root exactly
if the email of the principal says who it is. -/
theorem attributed_iff {chain : DelegationChain p} {principal : PrincipalRow} {i : Nat}
    {auth : Option Uuid} {req : AccessRequest} {response : AccessResponse} {info : IssuedTokenInfo}
    (rooted : chain.RootedAt principal) (hi : i ≤ chain.length)
    (presents : req.delegationToken = some (chain.token i))
    (run : requestAccess p auth req s = (.ok response, finish))
    (issued : response.token = some info) :
    Attributed p (chain.claims i) principal info s finish ↔ principal.Recoverable s := by
  obtain ⟨presented, claims, row, hpresented, hpayload, hsubject, hlog, hrow⟩ :=
    requestAccess_attributes run issued presents
  rw [chain.signed i hi] at hpresented
  obtain rfl := Option.some.inj hpresented
  rw [rooted.subject hi] at hsubject hrow
  rw [← readsBack_iff rfl, ← hsubject, ← hrow]
  constructor
  · rintro ⟨⟨claims', hpayload', hsame⟩, row', hlog', hprincipal⟩
    rw [hpayload] at hpayload'
    obtain rfl := Option.some.inj hpayload'
    obtain rfl : row = row' := by
      have hrows := List.append_cancel_left (hlog.symm.trans hlog')
      exact List.singleton_inj.mp hrows
    exact ⟨hsame.trans (rooted.subject hi), hprincipal⟩
  · rintro ⟨hsame, hprincipal⟩
    exact ⟨⟨claims, hpayload, hsame.trans (rooted.subject hi).symm⟩, row, hlog, hprincipal⟩

end

/-! ## Concrete chains -/

/-- The access token that the agent gets for a token of its chain. -/
def aliceReads : AgentClaims := { readClaims ⟨610⟩ with sub := "user:alice@corp" }

/-- A platform that can sign a chain of two tokens and an access token, under an open policy. -/
def chainPlatform : Platform :=
  .concrete (Jwt.ofTable [rootClaims, childClaims, aliceReads] (by decide))
    (parseKnown allowAll [.plain "allow" "test"])

def chainWorld : World := initialWorld.run chainPlatform (enrolment ++ [granting, permitting])

def chainOfTwo : DelegationChain chainPlatform where
  length := 1
  grant := ⟨⟨300⟩, ["read"], none, 600⟩
  auth _ := some ⟨300⟩
  request _ := ⟨Jwt.tableToken rootClaims, ⟨300⟩, ["read"], 60⟩
  token i := Jwt.tableToken (if i = 0 then rootClaims else childClaims)
  claims i := if i = 0 then rootClaims else childClaims
  root := ⟨(initialWorld.run chainPlatform enrolment).serving (.steady opening 400),
    ⟨⟨406⟩, Jwt.tableToken rootClaims, ["read"], 700 * 1000000000⟩, _,
    Prod.ext (by decide +kernel) rfl, rfl⟩
  hop i hi := by
    obtain rfl : i = 0 := Nat.lt_one_iff.mp hi
    exact ⟨rfl, chainWorld.serving (.steady opening 500),
      ⟨Jwt.tableToken childClaims, 160 * 1000000000, ["read"]⟩, _,
      Prod.ext (by decide +kernel) rfl, rfl⟩
  signed i _ := by
    split
    · decide +kernel
    · decide +kernel

def enrolledPrincipal (email : String) : PrincipalRow where
  id := ⟨200⟩
  externalId := "alice"
  idpProvider := "idp"
  email := email
  displayName := "Alice"
  createdAt := "1970-01-01T00:01:40+00:00"

def enrolledAgent : AgentRow :=
  { registeredAgent with
    name := "bot"
    principalType := .delegated
    ownerId := some ⟨200⟩ }

/-- A request for reading that presents a delegation token. -/
def readingFor (claims : AgentClaims) : AccessRequest :=
  { readDatabase with delegationToken := some (Jwt.tableToken claims) }

def readAnswer (claims : AgentClaims) : AccessResponse where
  decision := "allow"
  token := some ⟨Jwt.tableToken claims, 1000 * 1000000000, ["read"], claims.jti⟩
  approval := none
  reason := "test"
  approvedScopes := ["read"]

/-- The email of the enrolled principal says who it is, also after a hop. -/
theorem attributed_iff_enrolled : ∃ finish,
    requestAccess chainPlatform (some ⟨300⟩) (readingFor childClaims)
      (chainWorld.serving (.steady opening 600)) = (.ok (readAnswer aliceReads), finish) ∧
    Attributed chainPlatform childClaims (enrolledPrincipal "alice@corp")
      ⟨Jwt.tableToken aliceReads, 1000 * 1000000000, ["read"], aliceReads.jti⟩
      (chainWorld.serving (.steady opening 600)) finish := by
  have hrun : requestAccess chainPlatform (some ⟨300⟩) (readingFor childClaims)
      (chainWorld.serving (.steady opening 600)) = (.ok (readAnswer aliceReads), _) :=
    Prod.ext (by decide +kernel) rfl
  have hrooted : chainOfTwo.RootedAt (enrolledPrincipal "alice@corp") :=
    ⟨(initialWorld.run chainPlatform enrolment).serving (.steady opening 400),
      ⟨⟨406⟩, Jwt.tableToken rootClaims, ["read"], 700 * 1000000000⟩, _, enrolledAgent,
      Prod.ext (by decide +kernel) rfl, rfl, by decide +kernel, rfl, by decide +kernel⟩
  have hpresents : (readingFor childClaims).delegationToken = some (chainOfTwo.token 1) := rfl
  have hissued : (readAnswer aliceReads).token =
      some ⟨Jwt.tableToken aliceReads, 1000 * 1000000000, ["read"], aliceReads.jti⟩ := rfl
  have hrecoverable : (enrolledPrincipal "alice@corp").Recoverable
      (chainWorld.serving (.steady opening 600)) := ⟨by decide +kernel, by decide +kernel, rfl⟩
  exact ⟨_, hrun, (attributed_iff hrooted (Nat.le_refl 1) hpresents hrun hissued).mpr hrecoverable⟩

/-- Surviving attribution, as a promise about every chain and every request. -/
def AttributionSurvives : Prop :=
  ∀ (p : Platform) (chain : DelegationChain p) (principal : PrincipalRow) (i : Nat)
    (auth : Option Uuid) (req : AccessRequest) (response : AccessResponse)
    (info : IssuedTokenInfo) (s finish : Serving), chain.RootedAt principal → i ≤ chain.length →
    req.delegationToken = some (chain.token i) →
    requestAccess p auth req s = (.ok response, finish) → response.token = some info →
    Attributed p (chain.claims i) principal info s finish

/-- The root grant of a principal whose email begins with `user:`. -/
def prefixedClaims : AgentClaims := { rootClaims with sub := "user:user:alice@corp" }

def prefixedPlatform : Platform :=
  .concrete (Jwt.ofTable [prefixedClaims, readClaims ⟨609⟩] (by decide))
    (parseKnown allowAll [.plain "allow" "test"])

def prefixedEnrolment : List Input := [
  .steady .restart opening 100,
  .steady (.call (.createPrincipal ⟨"alice", "idp", "user:alice@corp", "Alice"⟩)) opening 200,
  .steady (.call (.createAgent ⟨"bot", .delegated, none, none, some ⟨200⟩⟩)) opening 300]

def prefixedChain : DelegationChain prefixedPlatform where
  length := 0
  grant := ⟨⟨300⟩, ["read"], none, 600⟩
  auth _ := none
  request _ := ⟨Jwt.tableToken prefixedClaims, ⟨300⟩, [], 0⟩
  token _ := Jwt.tableToken prefixedClaims
  claims _ := prefixedClaims
  root := ⟨(initialWorld.run prefixedPlatform prefixedEnrolment).serving (.steady opening 400),
    ⟨⟨406⟩, Jwt.tableToken prefixedClaims, ["read"], 700 * 1000000000⟩, _,
    Prod.ext (by decide +kernel) rfl, rfl⟩
  hop i hi := absurd hi (Nat.not_lt_zero i)
  signed _ _ := by decide +kernel

def prefixedServing : Serving :=
  (initialWorld.run prefixedPlatform (prefixedEnrolment ++ [granting, permitting])).serving
    (.steady opening 600)

/-- An email that begins with `user:` is not found again: the token names the agent. -/
theorem not_attributionSurvives : ¬ AttributionSurvives := by
  intro h
  have hrun : requestAccess prefixedPlatform (some ⟨300⟩) (readingFor prefixedClaims)
      prefixedServing = (.ok (readAnswer (readClaims ⟨609⟩)), _) :=
    Prod.ext (by decide +kernel) rfl
  have hrooted : prefixedChain.RootedAt (enrolledPrincipal "user:alice@corp") :=
    ⟨(initialWorld.run prefixedPlatform prefixedEnrolment).serving (.steady opening 400),
      ⟨⟨406⟩, Jwt.tableToken prefixedClaims, ["read"], 700 * 1000000000⟩, _, enrolledAgent,
      Prod.ext (by decide +kernel) rfl, rfl, by decide +kernel, rfl, by decide +kernel⟩
  obtain ⟨⟨claims, hpayload, hsubject⟩, -⟩ := h prefixedPlatform prefixedChain
    (enrolledPrincipal "user:alice@corp") 0 _ _ _ _ _ _ hrooted (Nat.le_refl 0) rfl hrun rfl
  have hclaims : prefixedPlatform.jwt.payload (Jwt.tableToken (readClaims ⟨609⟩)) =
      some (readClaims ⟨609⟩) := by decide +kernel
  rw [hclaims] at hpayload
  rw [← Option.some.inj hpayload] at hsubject
  exact absurd hsubject (by decide)

end Patroclus
