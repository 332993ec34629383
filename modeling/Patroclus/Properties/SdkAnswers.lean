import Patroclus.Sdk.Results
import Patroclus.Sdk.Decorators
import Patroclus.Properties.ScopeWords
import Patroclus.Properties.HttpAccess
import Patroclus.Properties.SdkRequests

/-!
# The SDK understands the server

What a method of the SDK returns is what the server replied to it, field by field. So an
access result that allows stands for a token that the server has just signed for the agent
whose key the request showed. The client itself shows no key, and without one nothing that
an agent asks for is ever answered.
-/

namespace Patroclus

open Foundation Serde

namespace Sdk

/-! ## Documents -/

section

variable (dates : Dates)

theorem fromResponse_document (response : AccessResponse) :
    AccessResult.fromResponse (response.document dates) = .ok (.of dates response) := by
  obtain ⟨decision, token, approval, reason, approvedScopes⟩ := response
  cases token <;> cases approval <;>
    simp [AccessResult.fromResponse, AccessResponse.document, IssuedTokenInfo.document,
      ApprovalInfo.document, AccessResult.of, nullOr, get, getIf, truthy, texts, bind, Except.bind,
      pure, Except.pure]

theorem mapM_read_document (approvals : List Database.ApprovalRequest) :
    (approvals.map (·.document dates)).mapM (fun (a : Json) => do
      return (⟨← item a "id", ← item a "status", .null, ← get a "reason" .null, .null⟩ :
        ApprovalResult)) = (.ok (approvals.map fun approval =>
          { ApprovalResult.of approval with approverId := .null, approvalToken := .null }) :
            Except PyException (List ApprovalResult)) := by
  induction approvals with
  | nil => rfl
  | cons approval approvals ih =>
      rw [List.map_cons, List.mapM_cons, ih]
      simp [Database.ApprovalRequest.document, ApprovalResult.of, item, get, bind, Except.bind,
        pure,
        Except.pure]

end

/-! ## Replies -/

section

variable {p : Platform} {dates : Dates} {auth : Option Uuid} {c : Patroclus.Call} {reply : Reply}
  {s finish : Serving}

theorem reply_of_return {α : Type} {handler : Handler α} {wrap : α → Reply}
    (run : (do return wrap (← handler)) s = (.ok reply, finish)) : ∃ a, reply = wrap a := by
  obtain ⟨a, middle, -, hreturn⟩ := Action.bind_ok_iff.mp run
  cases hreturn
  exact ⟨a, rfl⟩

/-- A method reads the reply to what it is for. -/
theorem accept_document {call : ClientCall} (meant : call.meaning p auth = some (.call c))
    (served : serve p c s = (.ok reply, finish)) :
    call.accept (c.document dates reply) = .ok (Reply.shown dates c reply) := by
  cases call
  all_goals
    simp only [ClientCall.meaning, Option.bind_eq_bind, Option.bind_eq_some_iff, Option.pure_def,
      Option.some.injEq, Operation.call.injEq, reduceCtorEq, and_false, exists_false] at meant
  case checkAccess request =>
      obtain ⟨req, -, rfl⟩ := meant
      obtain ⟨response, rfl⟩ := reply_of_return served
      rfl
  case requestAccess request =>
      obtain ⟨req, -, rfl⟩ := meant
      obtain ⟨response, rfl⟩ := reply_of_return served
      exact Outcome.bind_eq_ok.mpr ⟨_, fromResponse_document dates response, rfl⟩
  case delegate =>
      obtain ⟨subAgentId, -, seconds, -, rfl⟩ := meant
      obtain ⟨response, rfl⟩ := reply_of_return served
      rfl
  case getApprovalStatus =>
      obtain ⟨id, -, rfl⟩ := meant
      obtain ⟨approval, rfl⟩ := reply_of_return served
      rfl
  case delegatePermissions =>
      obtain ⟨agentId, -, seconds, -, rfl⟩ := meant
      obtain ⟨response, rfl⟩ := reply_of_return served
      rfl
  case listPendingApprovals =>
      subst meant
      obtain ⟨approvals, rfl⟩ := reply_of_return served
      refine Outcome.bind_eq_ok.mpr ⟨_, rfl, ?_⟩
      exact Outcome.bind_eq_ok.mpr ⟨_, mapM_read_document dates approvals, rfl⟩
  case approveRequest | denyRequest =>
      obtain ⟨id, -, approverId, -, rfl⟩ := meant
      obtain ⟨approval, rfl⟩ := reply_of_return served
      rfl
  case revokeGrant | killAgent | recordSpend =>
      obtain ⟨id, -, rfl⟩ := meant
      obtain ⟨answer, rfl⟩ := reply_of_return served
      rfl
  case registerAgent =>
      obtain ⟨principalType, -, ownerId, -, rfl⟩ := meant
      obtain ⟨agent, rfl⟩ := reply_of_return served
      rfl
  case registerPrincipal | getAuditTrail | listSessions =>
      subst meant
      obtain ⟨answer, rfl⟩ := reply_of_return served
      rfl
  case createPolicy | revokeToken =>
      subst meant
      obtain ⟨_, middle, -, hreturn⟩ := Action.bind_ok_iff.mp served
      cases hreturn
      rfl

end

/-! ## Calls -/

section

variable {setup : Setup} {i : Installation} {headers : List (String × List UInt8)}
  {readings : HttpReadings} {input : HttpInput} {text : String} {call : ClientCall}

theorem meaning_of_letThrough (plain : ∀ text, call.pathArgument = some text → IsPathText text)
    {gate : Tape} {operation : Operation}
    (admitted : i.letThrough setup (call.outgoing.sent headers) gate = .ok operation) :
    ∃ auth, LetThrough setup.platform setup.auth (call.outgoing.sent headers).toRequest
        i.world.app.db auth ∧
      call.meaning setup.platform auth = some operation := by
  obtain ⟨endpoint, agent, finish, hrun, hextract⟩ := Installation.letThrough_eq_ok admitted
  obtain ⟨auth, middle, hthrough, hnext⟩ := authMiddleware_ok hrun
  have hdispatch : dispatch (call.outgoing.sent headers).toRequest auth =
      .handled endpoint agent := by
    rw [Action.pure_run, Prod.mk.injEq, Except.ok.injEq] at hnext
    exact hnext.1
  obtain ⟨rfl, -⟩ := dispatch_handled hdispatch
  have hread : operationOf setup.platform setup.dates agent (call.outgoing.sent headers) =
      call.meaning setup.platform agent := operationOf_outgoing call plain
  refine ⟨agent, hthrough, ?_⟩
  rw [← hread, operationOf_handled hdispatch, hextract]
  rfl

theorem run_of_answer {operation : Operation} {document : Json} (up : i.world.up = true)
    (admitted : i.letThrough setup (call.outgoing.sent headers) readings.gate = .ok operation)
    (answered : i.answer setup operation readings input = .ok (.ok document))
    (posted : call ≠ .health) :
    call.run setup i headers readings input text = call.accept document := by
  have hmethod : (call.outgoing.sent headers).method ≠ .head := by
    cases call <;> nofun
  have hrespond : i.respond setup (call.outgoing.sent headers) readings input =
      some (.ok document) := by
    rw [Installation.respond, Installation.response, if_pos up, admitted]
    dsimp only
    rw [answered]
    simp [hmethod]
  rw [ClientCall.run, hrespond]
  cases call with
  | health => exact absurd rfl posted
  | _ => rfl

end

/-! ## Permissions -/

end Sdk

theorem PatroclusError.status_ne_ok (e : PatroclusError) : e.status ≠ 200 := by
  cases e <;> simp [status]

theorem Rejection.status_ne_ok (rejection : Rejection) : rejection.status ≠ 200 := by
  cases rejection with
  | body error => cases error <;> decide
  | _ => decide

theorem Failure.response_ne_ok {failure : Failure} {response : HttpResponse}
    (h : failure.response = some response) : response.status ≠ 200 := by
  cases failure with
  | error e =>
      cases h
      exact e.status_ne_ok
  | panic | unreachable => cases h

theorem Refusal.response_ne_ok {refusal : Refusal} {response : HttpResponse}
    (h : refusal.response = some response) : response.status ≠ 200 := by
  cases refusal with
  | unauthorized _ | notFound | methodNotAllowed =>
      cases h
      simp
  | rejected rejection =>
      cases h
      exact rejection.status_ne_ok
  | failed failure => exact Failure.response_ne_ok h

/-- Only an operation that has been carried out is answered with status 200. -/
theorem Installation.respond_ok {setup : Setup} {i : Installation} {req : HttpRequest}
    {readings : HttpReadings} {input : HttpInput} {response : HttpResponse}
    (h : i.respond setup req readings input = some response) (ok : response.status = 200)
    (body : req.method ≠ .head) : i.world.up = true ∧ ∃ operation,
      i.letThrough setup req readings.gate = .ok operation ∧
      i.answer setup operation readings input = .ok response := by
  obtain ⟨response', hresponse, h⟩ := Option.map_eq_some_iff.mp h
  rw [if_neg body] at h
  subst h
  rw [Installation.response] at hresponse
  split at hresponse
  · rename_i hup
    refine ⟨hup, ?_⟩
    split at hresponse
    · rename_i operation hadmit
      refine ⟨operation, hadmit, ?_⟩
      split at hresponse
      · rename_i hanswer
        cases hresponse
        exact hanswer
      · exact absurd ok (Failure.response_ne_ok hresponse)
    · exact absurd ok (Refusal.response_ne_ok hresponse)
  · cases hresponse

namespace Sdk

section

variable {setup : Setup} {i : Installation} {headers : List (String × List UInt8)}
  {readings : HttpReadings} {input : HttpInput} {text : String} {call : ClientCall}

/-- Whenever a server answers with status 200, it has carried out what the method is for, and
what the method returns is what it has replied. -/
theorem run_of_ok (plain : ∀ text, call.pathArgument = some text → IsPathText text)
    (ok : (i.respond setup (call.outgoing.sent headers) readings input).map (·.status) = some 200) :
    ∃ auth operation, call.meaning setup.platform auth = some operation ∧
      i.letThrough setup (call.outgoing.sent headers) readings.gate = .ok operation ∧
      ∀ c, operation = .call c → ∃ reply, i.world.reply setup.platform c input.tape = .ok reply ∧
        call.run setup i headers readings input text = .ok (Reply.shown setup.dates c reply) := by
  obtain ⟨response, hrespond, hstatus⟩ := Option.map_eq_some_iff.mp ok
  have hmethod : (call.outgoing.sent headers).method ≠ .head := by
    cases call <;> nofun
  obtain ⟨hup, operation, hadmit, hanswer⟩ := Installation.respond_ok hrespond hstatus hmethod
  obtain ⟨auth, -, hmeaning⟩ := meaning_of_letThrough plain hadmit
  refine ⟨auth, operation, hmeaning, hadmit, ?_⟩
  rintro c rfl
  obtain ⟨reply, hreply, hdocument⟩ := Outcome.bind_eq_ok.mp hanswer
  cases hdocument
  obtain ⟨finish, hserve⟩ := (World.reply_eq_ok hup).mp hreply
  have hposted : call ≠ .health := by
    rintro rfl
    cases hmeaning
  refine ⟨reply, hreply, ?_⟩
  rw [run_of_answer hup hadmit hanswer hposted, accept_document hmeaning hserve]

end

/-! ## A connected client -/

/-- What is signed for an agent that reads the database. -/
def connectedClaims : AgentClaims where
  iss := "patroclus"
  sub := "user:alice@corp"
  act := ⟨agentAudience ⟨300⟩, 0, none⟩
  scope := "read"
  aud := "db"
  exp := 1000
  iat := 100
  jti := (⟨608⟩ : Uuid).toString
  constraints := none
  cnf := none

def connectedPlatform : Platform :=
  .concrete (Jwt.ofTable [connectedClaims] (by decide))
    (parseKnown allowAll [.plain "allow" "test"])

def connectedSetup : Setup := { guardedSetup with platform := connectedPlatform }

/-- A server with an agent that has a key, under a policy that lets everyone do everything. -/
def connectedInstallation : Installation :=
  (initialInstallation "" none).run connectedSetup <| postings.take 3 ++ [
    posting operators ("/v1/admin/agents/" ++ (⟨300⟩ : Uuid).toString ++ "/client-key") .null 400,
    posting operators "/v1/admin/policies" (.object [("name", .string "open"),
      ("engine", .string "yaml"), ("definition", .string allowAll)]) 500]

def connectedReadings : HttpReadings :=
  ⟨.steady opening 0, .steady opening 1 .nil, ⟨fun _ _ => .ok .null, fun _ _ => .ok .null⟩⟩

def connectedInput : HttpInput := ⟨.restart none, opening, .steady opening 600⟩

theorem run_of_ok_kill :
    let call : ClientCall := .killAgent (⟨300⟩ : Uuid).toString
    ∃ auth operation, call.meaning connectedPlatform auth = some operation ∧
      connectedInstallation.letThrough connectedSetup (call.outgoing.sent operators)
        connectedReadings.gate = .ok operation ∧
      ∀ c, operation = .call c → ∃ reply,
        connectedInstallation.world.reply connectedPlatform c connectedInput.tape = .ok reply ∧
        call.run connectedSetup connectedInstallation operators connectedReadings connectedInput
          "" = .ok (Reply.shown connectedSetup.dates c reply) := by
  intro call
  have plain : ∀ text, call.pathArgument = some text → IsPathText text := by
    intro text htext
    cases htext
    exact isPathText_uuid
  have ok : (connectedInstallation.respond connectedSetup (call.outgoing.sent operators)
      connectedReadings connectedInput).map (·.status) = some 200 := by decide +kernel
  exact run_of_ok plain ok

end Sdk

/-- On the paths of agents a key is shown. -/
theorem LetThrough.showsKey {p : Platform} {auth : AuthConfig} {req : Request} {db : Db}
    {agent : Option Uuid} (h : LetThrough p auth req db agent)
    (operators : isAdminPath req.path = false) (agents : isAgentPath req.path = true) :
    ∃ id, agent = some id ∧ req.ShowsKey p db id := by
  cases h with
  | admin path =>
      rw [operators] at path
      cases path
  | @agent row path agentPath key mem hash active =>
      exact ⟨row.id, rfl, _, header_of_presentedKey key, row, mem, hash, active, rfl⟩
  | free path agentPath =>
      rw [agents] at agentPath
      cases agentPath

/-- What a call that is let through makes of the world. -/
theorem Installation.step_call {setup : Setup} {i : Installation} {req : HttpRequest}
    {readings : HttpReadings} {input : HttpInput} {call : Call} {outcome : Except Failure Reply}
    {finish : Serving} (up : i.world.up = true)
    (admitted : i.letThrough setup req readings.gate = .ok (.call call))
    (served : serve setup.platform call (i.world.serving input.tape) = (outcome, finish)) :
    (i.step setup { input with event := .request req readings }).world =
      ⟨finish.app, finish.ledger, true, input.arrival⟩ := by
  have hstep : i.step setup { input with event := .request req readings } =
      i.stepSite setup (.server (.call call)) { input with event := .request req readings } := by
    rw [step]
    dsimp only
    rw [if_pos up, admitted]
    rfl
  have hworld : i.world.step setup.platform ⟨.call call, input.arrival, input.tape⟩ =
      ⟨finish.app, finish.ledger, true, input.arrival⟩ := by
    rw [World.step]
    dsimp only
    rw [if_pos up, served]
  rw [hstep, ← hworld]
  rfl

/-- A request that is neither denied nor held for approval is answered with a token. -/
theorem requestAccess_token {p : Platform} {auth : Option Uuid} {req : AccessRequest}
    {response : AccessResponse} {s finish : Serving}
    (run : requestAccess p auth req s = (.ok response, finish))
    (notDenied : response.decision ≠ "deny")
    (noApproval : response.decision ≠ "require_approval") : response.token ≠ none := by
  rcases requestAccess_eq_ok.mp run with ⟨caller, -, -, rfl⟩ | ⟨caller, -, -, -, rfl⟩ |
    ⟨caller, s₁, eval, s₂, s₃, hdecided⟩
  · exact absurd rfl notDenied
  · exact absurd rfl notDenied
  · have hdecision := enactDecision_decision hdecided.enacted
    cases hallow : eval.decision with
    | allow =>
        have henacted := hdecided.enacted
        rw [enactDecision, hallow] at henacted
        obtain ⟨minted, expiresAt, row, hgranted⟩ := grantAccess_granted henacted
        rw [hgranted.response_eq]
        exact Option.some_ne_none _
    | deny =>
        rw [hallow] at hdecision
        exact absurd hdecision notDenied
    | requireApproval approver reason =>
        rw [hallow] at hdecision
        exact absurd hdecision noApproval

namespace Sdk

/-- What a permission stands for: the server has decided by a rule that allows, and signed a
token for the agent whose key the request has shown. -/
structure AccessResult.Permits (setup : Setup) (request : AccessRequest) (sent : HttpRequest)
    (before after : Installation) (result : AccessResult) (agentId : Uuid) (rule : Rule)
    (minted : Minted) : Prop where
  agent : setup.platform.parseUuid request.agentId = some agentId
  key : sent.toRequest.ShowsKey setup.platform before.world.app.db agentId
  decides : ∃ req now, request.meaning setup.platform = some req ∧
    rule.Decides before.world.app req now
  allows : rule.decision = "allow"
  allowed : result.allowed = true
  signed : after.world.ledger = before.world.ledger ++ [minted]
  origin : minted.origin = .requestAccess agentId
  audience : minted.claims.aud = request.resource
  token : result.token = .string minted.token
  tokenJti : result.tokenJti = .string minted.claims.jti
  scopes : ∃ scopes, result.tokenScopes = texts scopes ∧ result.approvedScopes = texts scopes ∧
    minted.claims.scope = joinScopes scopes ∧ ∀ scope ∈ scopes, scope ∈ request.scopes.getD []

section

variable {setup : Setup} {i : Installation} {headers : List (String × List UInt8)}
  {readings : HttpReadings} {input : HttpInput} {text : String} {request : AccessRequest}
  {result : AccessResult}

/-- A result that is no refusal is what the server has replied. -/
theorem requestAccess_replied
    (h : (connected setup i headers readings input text).requestAccess request = .ok result)
    (notDenied : result.denied = false) :
    i.world.up = true ∧ ∃ id req response finish,
      request.meaning setup.platform = some req ∧
      ((ClientCall.requestAccess request).outgoing.sent headers).toRequest.ShowsKey setup.platform
        i.world.app.db id ∧
      i.letThrough setup ((ClientCall.requestAccess request).outgoing.sent headers) readings.gate =
        .ok (.call (.requestAccess (some id) req)) ∧
      Patroclus.requestAccess setup.platform (some id) req (i.world.serving input.tape) =
        (.ok response, finish) ∧
      result = .of setup.dates response := by
  obtain ⟨resp, hanswer, h⟩ := Outcome.bind_eq_ok.mp h
  change receive text (i.respond setup ((ClientCall.requestAccess request).outgoing.sent headers)
    readings input) = .ok resp at hanswer
  cases hrespond : i.respond setup ((ClientCall.requestAccess request).outgoing.sent headers)
      readings input with
  | none =>
      rw [hrespond] at hanswer
      cases hanswer
  | some response =>
      rw [hrespond] at hanswer
      cases hanswer
      split at h
      · rename_i hstatus
        obtain ⟨data, hdata, h⟩ := Outcome.bind_eq_ok.mp h
        obtain ⟨hup, operation, hadmit, hanswer⟩ :=
          Installation.respond_ok hrespond hstatus nofun
        have hplain : ∀ text, (ClientCall.requestAccess request).pathArgument = some text →
            IsPathText text := by
          intro _ h
          cases h
        obtain ⟨auth, hthrough, hmeaning⟩ := meaning_of_letThrough hplain hadmit
        obtain ⟨id, rfl, hkey⟩ := hthrough.showsKey
          (show isAdminPath "/v1/agent/request-access" = false by decide +kernel)
          (show isAgentPath "/v1/agent/request-access" = true by decide +kernel)
        obtain ⟨req, hreq, hoperation⟩ := Option.bind_eq_some_iff.mp hmeaning
        cases hoperation
        obtain ⟨reply, hreply, hdocument⟩ := Outcome.bind_eq_ok.mp hanswer
        cases hdocument
        cases hdata
        obtain ⟨finish, hserve⟩ := (World.reply_eq_ok hup).mp hreply
        obtain ⟨access, middle, hrun, hreturn⟩ := Action.bind_ok_iff.mp hserve
        cases hreturn
        have hread : AccessResult.fromResponse
            (Patroclus.Call.document setup.dates (.requestAccess (some id) req) (.access access)) =
              .ok (.of setup.dates access) := fromResponse_document setup.dates access
        rw [hread] at h
        cases h
        exact ⟨hup, id, req, access, finish, hreq, hkey, hadmit, hrun, rfl⟩
      · cases h
        cases notDenied

/-- A result that is no refusal comes with a token that the server has signed for it. -/
theorem requestAccess_permits
    (h : (connected setup i headers readings input text).requestAccess request = .ok result)
    (notDenied : result.denied = false) (noApproval : result.requiresApproval = false) :
    ∃ agentId rule minted,
      let sent := (ClientCall.requestAccess request).outgoing.sent headers
      result.Permits setup request sent i
        (i.step setup { input with event := .request sent readings }) agentId rule minted := by
  obtain ⟨hup, id, req, response, finish, hmeaning, hkey, hadmit, hrun, rfl⟩ :=
    requestAccess_replied h notDenied
  have htoken : response.token ≠ none := by
    apply requestAccess_token hrun
    · intro hdeny
      rw [AccessResult.denied, AccessResult.of, hdeny] at notDenied
      cases notDenied
    · intro happroval
      rw [AccessResult.requiresApproval, AccessResult.of, happroval] at noApproval
      cases noApproval
  obtain ⟨caller, rule, minted, hresolved, hissued⟩ := requestAccess_issuedTo hrun htoken
  obtain rfl := Option.some.inj hresolved.authenticated
  obtain ⟨n, hdecides⟩ := hissued.decides
  obtain ⟨expiresAt, hresponse⟩ := hissued.response
  obtain ⟨iat, exp, jti, hclaims⟩ := hissued.signed.claims
  have hserve : serve setup.platform (.requestAccess (some req.agentId) req)
      (i.world.serving input.tape) = (.ok (.access response), finish) :=
    Action.bind_ok_iff.mpr ⟨response, finish, hrun, rfl⟩
  have hworld := Installation.step_call hup hadmit hserve
  obtain ⟨id, hparse, hreq⟩ := Option.bind_eq_some_iff.mp hmeaning
  cases hreq
  refine ⟨id, rule, minted, {
    agent := hparse
    key := hkey
    decides := ⟨_, _, hmeaning, hdecides⟩
    allows := hissued.allow
    allowed := ?_
    signed := (congrArg World.ledger hworld).trans hissued.ledger
    origin := ?_
    audience := ?_
    token := ?_
    tokenJti := ?_
    scopes := ⟨rule.approvedScopes (request.scopes.getD []), ?_, ?_, ?_, ?_⟩ }⟩
  · have hdecision : response.decision = rule.decisionOf.name := by
      rw [hresponse]
      rfl
    rw [AccessResult.allowed, AccessResult.of, hdecision,
      Rule.decisionOf_eq_allow.mpr hissued.allow]
    rfl
  · rw [hissued.signed.origin, hresolved.agentId]
  · rw [hclaims]
    rfl
  · rw [hresponse]
    rfl
  · rw [hresponse]
    rfl
  · rw [hresponse]
    rfl
  · rw [hresponse]
    rfl
  · rw [hclaims]
    rfl
  · intro scope hscope
    exact (Rule.mem_approvedScopes.mp hscope).1

end

/-! ## Enforcement points -/

section

variable {α : Type} {name other : String} {value : Argument α} {func : PyCallable}
  {kwargs kwargs' : List (String × Argument α)} {result : AccessResult}

theorem lookup_setItem_self : (setItem name value kwargs).lookup name = some value := by
  induction kwargs with
  | nil => simp [setItem]
  | cons head rest ih =>
      obtain ⟨k, v⟩ := head
      rw [setItem]
      split
      · rename_i heq
        rw [heq, List.lookup_cons_self]
      · rename_i hne
        rw [lookup_cons_of_ne (Ne.symm hne), ih]

theorem lookup_setItem_of_ne (h : other ≠ name) :
    (setItem name value kwargs).lookup other = kwargs.lookup other := by
  induction kwargs with
  | nil => rw [setItem, lookup_cons_of_ne h]
  | cons head rest ih =>
      obtain ⟨k, v⟩ := head
      rw [setItem]
      split
      · rename_i heq
        have hother : other ≠ k := heq ▸ h
        rw [lookup_cons_of_ne hother, lookup_cons_of_ne hother]
      · rw [List.lookup_cons, List.lookup_cons, ih]

/-- A function with a variable for the token is handed the token of the result. -/
structure HandsOver (func : PyCallable) (result : AccessResult) (call : Call α) : Prop where
  passes : result.Passes func
  token : func.declares "patroclus_token" = .ok true →
    call.kwargs.lookup "patroclus_token" = some (.json result.token)

theorem passToken_token (passed : passToken func result kwargs = .ok kwargs')
    (declared : func.declares "patroclus_token" = .ok true) :
    kwargs'.lookup "patroclus_token" = some (.json result.token) := by
  rw [passToken, declared] at passed
  cases passed
  exact lookup_setItem_self

variable {str : Argument α → String} {approvalWords action resource : String}
  {scopes : Option (List String)} {args : List (Argument α)} {call : Call α}

/-- What an enforcement point has found before it calls its function. -/
theorem guarded_handsOver {request : Except PyException AccessResult}
    {next : List (String × Argument α) → Except PyException (Call α)}
    (keeps : ∀ passed call, next passed = .ok call →
      call.kwargs.lookup "patroclus_token" = passed.lookup "patroclus_token")
    (h : (do
        let result ← request
        result.enforce str approvalWords action resource
        let passed ← passToken func result kwargs
        next passed) = .ok call) :
    ∃ result, request = .ok result ∧ HandsOver func result call := by
  obtain ⟨result, hresult, h⟩ := Outcome.bind_eq_ok.mp h
  obtain ⟨_, henforce, h⟩ := Outcome.bind_eq_ok.mp h
  obtain ⟨passed, hpassed, hnext⟩ := Outcome.bind_eq_ok.mp h
  obtain ⟨hdenied, happroval⟩ := enforce_eq_ok.mp henforce
  refine ⟨result, hresult, ⟨hdenied, happroval, passToken_isOk.mp ⟨passed, hpassed⟩⟩, ?_⟩
  intro hdeclared
  rw [keeps passed call hnext, passToken_token hpassed hdeclared]

theorem authorizedAction_handsOver {client : PatroclusClient} {sessionId agentId : Option String}
    (h : authorizedAction str client action resource scopes sessionId func args agentId kwargs =
      .ok call) :
    ∃ result, client.requestAccess
        (wrappedRequest str action resource scopes sessionId args agentId) = .ok result ∧
      HandsOver func result call := by
  refine guarded_handsOver ?_ h
  intro passed call hnext
  obtain ⟨declared, -, hnext⟩ := Outcome.bind_eq_ok.mp hnext
  split at hnext
  · cases hnext
    exact lookup_setItem_of_ne (by decide)
  · cases hnext
    rfl

theorem execute_handsOver {mw : PatroclusMiddleware}
    (h : mw.execute str action resource scopes func args kwargs = .ok call) :
    ∃ result, mw.client.requestAccess (mw.accessRequest action resource scopes) = .ok result ∧
      HandsOver func result call := by
  refine guarded_handsOver ?_ h
  intro passed call hnext
  cases hnext
  rfl

end

/-- The server behind a connection permits a request, and has signed the token of the result. -/
def Permitted (setup : Setup) (i : Installation) (headers : List (String × List UInt8))
    (readings : HttpReadings) (input : HttpInput) (request : AccessRequest)
    (result : AccessResult) : Prop :=
  ∃ agentId rule minted,
    let sent := (ClientCall.requestAccess request).outgoing.sent headers
    result.Permits setup request sent i
      (i.step setup { input with event := .request sent readings }) agentId rule minted

/-- In front of this server the enforcement points call their functions only with a
permission, and hand them the token that the server has signed for it. -/
theorem enforcementPoints_permitted {α : Type} (str : Argument α → String) (setup : Setup)
    (i : Installation) (headers : List (String × List UInt8)) (readings : HttpReadings)
    (input : HttpInput) (text action resource : String) (scopes : Option (List String))
    (sessionId agentId : Option String) (func : PyCallable) (args : List (Argument α))
    (kwargs : List (String × Argument α)) (mw : PatroclusMiddleware) :
    let client := connected setup i headers readings input text
    let mw := { mw with client }
    (∀ call, authorizedAction str client action resource scopes sessionId func args agentId
        kwargs = .ok call → ∃ result, Permitted setup i headers readings input
          (wrappedRequest str action resource scopes sessionId args agentId) result ∧
        HandsOver func result call) ∧
    (∀ call, mw.execute str action resource scopes func args kwargs = .ok call →
      ∃ result, Permitted setup i headers readings input
        (mw.accessRequest action resource scopes) result ∧ HandsOver func result call) ∧
    ∀ token mw', mw.getToken action resource scopes = .ok (token, mw') → token ≠ .null →
      ∃ result, Permitted setup i headers readings input
        (mw.accessRequest action resource scopes) result ∧ token = result.token := by
  intro client mw
  refine ⟨?_, ?_, ?_⟩
  · intro call h
    obtain ⟨result, hresult, hhands⟩ := authorizedAction_handsOver h
    exact ⟨result, requestAccess_permits hresult hhands.passes.notDenied hhands.passes.noApproval,
      hhands⟩
  · intro call h
    obtain ⟨result, hresult, hhands⟩ := execute_handsOver h
    exact ⟨result, requestAccess_permits hresult hhands.passes.notDenied hhands.passes.noApproval,
      hhands⟩
  · intro token mw' h hgiven
    obtain ⟨result, hresult, h⟩ := Outcome.bind_eq_ok.mp h
    split at h
    · rename_i hallowed
      have hallow : result.decision = .string "allow" := beq_iff_eq.mp hallowed
      cases h
      refine ⟨result, requestAccess_permits hresult ?_ ?_, rfl⟩
      · rw [AccessResult.denied, hallow]
        rfl
      · rw [AccessResult.requiresApproval, hallow]
        rfl
    · cases h
      exact absurd rfl hgiven

/-- A guarded function is called with a token. -/
theorem enforcementPoints_permitted_connected :
    let headers := [("x-client-key", utf8 "pat_")]
    let func : PyCallable := ⟨"function", some ["patroclus_token"]⟩
    let agentId := some (⟨300⟩ : Uuid).toString
    ∃ call result, call.kwargs.length = 1 ∧
      authorizedAction (α := Unit) (fun _ => "") (connected connectedSetup connectedInstallation
        headers connectedReadings connectedInput "") "read" "db" (some ["read"]) none func []
          agentId [] = .ok call ∧
      Permitted connectedSetup connectedInstallation headers connectedReadings connectedInput
        (wrappedRequest (α := Unit) (fun _ => "") "read" "db" (some ["read"]) none [] agentId)
        result ∧ HandsOver func result call := by
  intro headers func agentId
  have hcalled : (authorizedAction (α := Unit) (fun _ => "") (connected connectedSetup
      connectedInstallation headers connectedReadings connectedInput "") "read" "db"
      (some ["read"]) none func [] agentId []).toOption.any (·.kwargs.length == 1) = true := by
    decide +kernel
  obtain ⟨call, hcall, hkwargs⟩ := (Option.any_eq_true _ _).mp hcalled
  have hcall := Outcome.toOption_eq_some.mp hcall
  obtain ⟨hdecorated, -⟩ := enforcementPoints_permitted (fun _ => "") connectedSetup
    connectedInstallation headers connectedReadings connectedInput "" "read" "db" (some ["read"])
    none agentId func [] [] ⟨connected connectedSetup connectedInstallation headers
      connectedReadings connectedInput "", "", none, none, []⟩
  obtain ⟨result, hpermitted, hhands⟩ := hdecorated call hcall
  exact ⟨call, result, beq_iff_eq.mp hkwargs, hcall, hpermitted, hhands⟩

end Sdk

/-! ## Clients without a key -/

theorem createRouter_unkeyed {p : Platform} {auth : AuthConfig} {req : Request} {s : Serving}
    (operators : isAdminPath req.path = false) (agents : isAgentPath req.path = true)
    (unkeyed : req.header agentKeyHeader = none) :
    createRouter p auth req s = (.ok (.error ⟨"missing agent client key"⟩), s) := by
  have hkey : (presentedKey req).isEmpty = true := by
    rw [presentedKey, unkeyed]
    rfl
  rw [createRouter, authMiddleware, operators, agents, hkey]
  rfl

theorem isAgentPath_append (rest : String) :
    isAdminPath ("/v1/agent/" ++ rest) = false ∧ isAgentPath ("/v1/agent/" ++ rest) = true := by
  constructor
  · rw [Bool.eq_false_iff]
    intro h
    obtain ⟨base, hbase, h⟩ := List.any_eq_true.mp h
    have hprefix : base.toList <+: "/v1/agent/".toList ++ rest.toList := by
      rw [← String.toList_append]
      obtain heq | hslash := Bool.or_eq_true_iff.mp h
      · rw [beq_iff_eq.mp heq]
      · rw [startsWith_iff, String.toList_append] at hslash
        exact (List.prefix_append _ _).trans hslash
    simp only [adminPrefixes, List.mem_cons, List.not_mem_nil, or_false] at hbase
    obtain rfl | rfl | rfl | rfl := hbase <;> simp at hprefix
  · refine List.any_eq_true.mpr ⟨"/v1/agent", List.mem_singleton.mpr rfl, ?_⟩
    rw [Bool.or_eq_true_iff, startsWith_iff]
    exact .inr ⟨rest.toList, by simp [String.toList_append]⟩

namespace Sdk

/-- The methods for agents. -/
def ClientCall.isAgents : ClientCall → Bool
  | checkAccess _ | requestAccess _ | delegate _ _ _ _ | getApprovalStatus _ => true
  | _ => false

theorem isAgentPath_outgoing {call : ClientCall} (agents : call.isAgents = true) :
    isAdminPath call.outgoing.path = false ∧ isAgentPath call.outgoing.path = true := by
  cases call
  case checkAccess => exact isAgentPath_append "check"
  case requestAccess => exact isAgentPath_append "request-access"
  case delegate => exact isAgentPath_append "delegate"
  case getApprovalStatus requestId =>
      have happend : "/v1/agent/approval-status/" ++ requestId =
          "/v1/agent/" ++ ("approval-status/" ++ requestId) := by
        rw [← String.append_assoc]
        rfl
      rw [ClientCall.outgoing, happend]
      exact isAgentPath_append _
  all_goals cases agents

section

variable {setup : Setup} {i : Installation} {headers : List (String × List UInt8)}
  {readings : HttpReadings} {input : HttpInput} {text : String} {call : ClientCall}

theorem letThrough_unkeyed (agents : call.isAgents = true)
    (unkeyed : headers.find? (·.1 == agentKeyHeader) = none) (gate : Tape) :
    i.letThrough setup (call.outgoing.sent headers) gate =
      .error (.unauthorized ⟨"missing agent client key"⟩) := by
  obtain ⟨hoperators, hagents⟩ := isAgentPath_outgoing agents
  have hheader : (call.outgoing.sent headers).toRequest.header agentKeyHeader = none := by
    rw [Request.header]
    exact congrArg (Option.map _) unkeyed
  rw [Installation.letThrough, createRouter_unkeyed hoperators hagents hheader]

theorem respond_unkeyed (up : i.world.up = true) (agents : call.isAgents = true)
    (unkeyed : headers.find? (·.1 == agentKeyHeader) = none) :
    i.respond setup (call.outgoing.sent headers) readings input =
      some ⟨401, some (errorDocument "missing agent client key")⟩ := by
  have hmethod : (call.outgoing.sent headers).method ≠ .head := by
    cases call <;> nofun
  rw [Installation.respond, Installation.response, if_pos up, letThrough_unkeyed agents unkeyed]
  simp [Refusal.response, hmethod]

theorem run_unkeyed (up : i.world.up = true) (agents : call.isAgents = true)
    (unkeyed : headers.find? (·.1 == agentKeyHeader) = none) :
    call.run setup i headers readings input text =
      call.refuse ⟨401, text, .ok (errorDocument "missing agent client key")⟩ := by
  rw [ClientCall.run, respond_unkeyed up agents unkeyed]
  cases call with
  | health => cases agents
  | _ => rfl

theorem step_unkeyed (up : i.world.up = true) (agents : call.isAgents = true)
    (unkeyed : headers.find? (·.1 == agentKeyHeader) = none) :
    i.step setup { input with event := .request (call.outgoing.sent headers) readings } =
      i.idle input.arrival := by
  rw [Installation.step]
  dsimp only
  rw [if_pos up, letThrough_unkeyed agents unkeyed]

theorem requestAccess_unkeyed (up : i.world.up = true)
    (unkeyed : headers.find? (·.1 == agentKeyHeader) = none) (request : AccessRequest) :
    (connected setup i headers readings input text).requestAccess request =
      .ok (.refused ("HTTP 401: " ++ text)) := by
  have hanswer : (connected setup i headers readings input text).answer request =
      .ok ⟨401, text, .ok (errorDocument "missing agent client key")⟩ := by
    change receive text (i.respond setup
      ((ClientCall.requestAccess request).outgoing.sent headers) readings input) = _
    rw [respond_unkeyed up rfl unkeyed]
    rfl
  have htext : "HTTP " ++ toString 401 ++ ": " = "HTTP 401: " := by decide
  rw [PatroclusClient.requestAccess, hanswer, ← htext]
  rfl

end

/-- The error that an enforcement point raises when its request is answered with 401. -/
def unkeyedError {α : Type} (str : Argument α → String) (action resource text : String) :
    PyException :=
  .permissionError ("Patroclus denied " ++ action ++ " on " ++ resource ++ ": " ++
    str (.json (.string ("HTTP 401: " ++ text))))

/-- The client sends no key of its own, and without one a server never answers what an agent
asks for: the methods for agents refuse, guarded functions are not called, the middleware has
no token to give, and the server is left as it was. -/
theorem unkeyed_refused {α : Type} (str : Argument α → String) {setup : Setup} {i : Installation}
    {headers : List (String × List UInt8)} (up : i.world.up = true)
    (unkeyed : headers.find? (·.1 == agentKeyHeader) = none) (readings : HttpReadings)
    (input : HttpInput) (text : String) :
    (∀ call : ClientCall, call.isAgents = true →
      (∀ argument, call.pathArgument = some argument → IsPathText argument) →
      call.run setup i headers readings input text =
        call.refuse ⟨401, text, .ok (errorDocument "missing agent client key")⟩ ∧
      i.step setup { input with event := .request (call.outgoing.sent headers) readings } =
        i.idle input.arrival) ∧
    ∀ (action resource : String) (scopes : Option (List String)) (func : PyCallable)
      (args : List (Argument α)) (kwargs : List (String × Argument α)),
      (∀ sessionId agentId, authorizedAction str (connected setup i headers readings input text)
        action resource scopes sessionId func args agentId kwargs =
          .error (unkeyedError str action resource text)) ∧
      ∀ mw : PatroclusMiddleware, mw.client = connected setup i headers readings input text →
        mw.execute str action resource scopes func args kwargs =
          .error (unkeyedError str action resource text) ∧
        mw.getToken action resource scopes = .ok (.null, mw) := by
  refine ⟨fun call agents _ => ⟨run_unkeyed up agents unkeyed, step_unkeyed up agents unkeyed⟩, ?_⟩
  intro action resource scopes func args kwargs
  refine ⟨fun sessionId agentId => ?_, fun mw connects => ⟨?_, ?_⟩⟩
  · rw [authorizedAction, requestAccess_unkeyed up unkeyed]
    rfl
  · rw [PatroclusMiddleware.execute, connects, requestAccess_unkeyed up unkeyed]
    rfl
  · rw [PatroclusMiddleware.getToken, connects, requestAccess_unkeyed up unkeyed]
    rfl

theorem unkeyed_refused_connected :
    let i := connectedInstallation
    (∀ call : ClientCall, call.isAgents = true →
      (∀ argument, call.pathArgument = some argument → IsPathText argument) →
      call.run connectedSetup i [] connectedReadings connectedInput "" =
        call.refuse ⟨401, "", .ok (errorDocument "missing agent client key")⟩ ∧
      i.step connectedSetup { connectedInput with
        event := .request (call.outgoing.sent []) connectedReadings } = i.idle opening) ∧
    ∀ (action resource : String) (scopes : Option (List String)) (func : PyCallable)
      (args : List (Argument Unit)) (kwargs : List (String × Argument Unit)),
      (∀ sessionId agentId, authorizedAction (fun _ => "") (connected connectedSetup i []
        connectedReadings connectedInput "") action resource scopes sessionId func args agentId
          kwargs = .error (unkeyedError (fun _ : Argument Unit => "") action resource "")) ∧
      ∀ mw : PatroclusMiddleware,
        mw.client = connected connectedSetup i [] connectedReadings connectedInput "" →
        mw.execute (fun _ => "") action resource scopes func args kwargs =
          .error (unkeyedError (fun _ : Argument Unit => "") action resource "") ∧
        mw.getToken action resource scopes = .ok (.null, mw) :=
  unkeyed_refused (fun _ => "") (by decide +kernel) rfl connectedReadings connectedInput ""

end Sdk

end Patroclus
