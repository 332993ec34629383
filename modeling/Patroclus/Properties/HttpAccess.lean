import Patroclus.Api.Installation
import Patroclus.Properties.AuthGate

/-!
# What requests can make the server do

Everything that changes the server arrives as a request. A run over HTTP is a run of the
site whose calls are those of the requests that were let through; each of them has shown the
admin token, or the client key of the agent as which it acts, as it was stored when the
request came in. So what is known of the runs of the site holds of the server behind HTTP,
and no token is signed for a client without a credential.
-/

namespace Patroclus

open Foundation

/-- What a request has to show for an operation. -/
inductive Gate where
  | admin
  | agent (auth : Option Uuid)
  | free
deriving DecidableEq, Repr

def Endpoint.gate (auth : Option Uuid) : Endpoint → Gate
  | requestAccess | checkAccess | delegate | approvalStatus => .agent auth
  | dashboard | health | healthReady | prometheusMetrics | jwks | idpAuthorize | idpCallback
  | idpUserinfo | listIdpProviders => .free
  | _ => .admin

def Operation.gate : Operation → Gate
  | call (.requestAccess auth _) | call (.check auth _) | call (.delegate auth _)
  | call (.approvalStatus auth _) => .agent auth
  | call _ | vault _ => .admin
  | _ => .free

def Request.ShowsToken (token : String) (req : Request) : Prop :=
  req.header "authorization" = some (utf8 ("Bearer " ++ token))

/-- The request shows the key of an agent that is active. -/
def Request.ShowsKey (p : Platform) (db : Db) (id : Uuid) (req : Request) : Prop :=
  ∃ key, req.header "x-client-key" = some (utf8 key) ∧ ∃ row ∈ db.agents,
    row.clientKeyHash = some (hashClientKey p key) ∧ row.status = .active ∧ row.id = id

def Gate.Passed (p : Platform) (token : String) (db : Db) (req : Request) : Gate → Prop
  | admin => req.ShowsToken token
  | agent auth => ∃ id, auth = some id ∧ req.ShowsKey p db id
  | free => True

/-- What a request must have shown for a token to be signed. -/
def Origin.Passed (p : Platform) (token : String) (db : Db) (req : Request) : Origin → Prop
  | requestAccess agentId | delegate agentId _ => req.ShowsKey p db agentId
  | principalDelegate _ => req.ShowsToken token

/-! ## Operations and their gates -/

section

variable {p : Platform} {dates : Dates} {endpoint : Endpoint} {auth : Option Uuid}
  {req : HttpRequest} {operation : Operation}

theorem gate_of_bind {α : Type} {args : Except Rejection α} {wrap : α → Operation} {gate : Gate}
    (h : (do return wrap (← args)) = .ok operation) (same : ∀ a, (wrap a).gate = gate) :
    operation.gate = gate := by
  obtain ⟨a, -, h⟩ := Outcome.bind_eq_ok.mp h
  cases h
  exact same a

/-- The arguments of a handler do not change what its operation has to show. -/
theorem extract_gate (h : extract p dates endpoint auth req = .ok operation) :
    operation.gate = endpoint.gate auth := by
  cases endpoint
  case revokeGrant =>
      obtain ⟨id, -, h⟩ := Outcome.bind_eq_ok.mp h
      exact gate_of_bind h fun _ => rfl
  case approveRequest | denyRequest | recordSpend =>
      obtain ⟨id, -, h⟩ := Outcome.bind_eq_ok.mp h
      exact gate_of_bind h fun _ => rfl
  case requestAccess | checkAccess | delegate | approvalStatus | principalDelegate | createAgent
      | getAgent | createPrincipal | createResource | createPolicy | revokeToken | storeCredential
      | vendCredential | killSession | killAgent | restoreAgent | provisionClientKey
      | idpAuthorize | idpCallback | idpUserinfo =>
      exact gate_of_bind h fun _ => rfl
  all_goals
    cases h
    rfl

end

/-- The gates are those of the templates. -/
theorem allRoutes_gates : ∀ route ∈ allRoutes, ∀ endpoint ∈ route.router.endpoints,
    (endpoint.gate none = .admin ↔ route.IsOperators) ∧
      (endpoint.gate none = .agent none ↔ route.IsAgents) := by decide +kernel

theorem Endpoint.gate_eq_admin {endpoint : Endpoint} {auth : Option Uuid} :
    endpoint.gate auth = .admin ↔ endpoint.gate none = .admin := by
  cases endpoint <;> simp [gate]

theorem Endpoint.gate_eq_agent {endpoint : Endpoint} {auth auth' : Option Uuid}
    (h : endpoint.gate auth = .agent auth') : auth' = auth ∧ endpoint.gate none = .agent none := by
  cases endpoint
  case requestAccess | checkAccess | delegate | approvalStatus =>
      cases h
      exact ⟨rfl, rfl⟩
  all_goals cases h

namespace Installation

variable {setup : Setup} {token : String} {i : Installation} {req : HttpRequest} {gate : Tape}
  {operation : Operation}

theorem letThrough_eq_ok (h : i.letThrough setup req gate = .ok operation) :
    ∃ endpoint agent finish,
    createRouter setup.platform setup.auth req.toRequest (i.world.serving gate) =
      (.ok (.ok (.handled endpoint agent)), finish) ∧
    extract setup.platform setup.dates endpoint agent req = .ok operation := by
  rw [letThrough] at h
  split at h
  · cases h
  · cases h
  · cases h
  · cases h
  · rename_i endpoint agent hrouted
    exact ⟨endpoint, agent, _, Prod.ext hrouted rfl, Outcome.mapError_eq_ok.mp h⟩

/-- An operation is carried out only for a request that has shown what it takes. -/
theorem letThrough_passed (configured : setup.auth.adminToken = some token) (nonempty : token ≠ "")
    (h : i.letThrough setup req gate = .ok operation) :
    operation.gate.Passed setup.platform token i.world.app.db req.toRequest := by
  obtain ⟨endpoint, agent, finish, hrun, hextract⟩ := letThrough_eq_ok h
  obtain ⟨authenticated, middle, -, hnext⟩ := authMiddleware_ok hrun
  have hdispatch : dispatch req.toRequest authenticated = .handled endpoint agent := by
    rw [Action.pure_run, Prod.mk.injEq, Except.ok.injEq] at hnext
    exact hnext.1
  obtain ⟨-, route, hroute, -, hendpoint⟩ := dispatch_handled hdispatch
  have hgated := gated_of_handled configured nonempty hroute hendpoint hrun
  obtain ⟨hadmin, hagent⟩ := allRoutes_gates route hroute endpoint hendpoint
  rw [extract_gate hextract]
  cases hgate : endpoint.gate agent with
  | free => trivial
  | admin => exact hgated.operators (hadmin.mp (Endpoint.gate_eq_admin.mp hgate))
  | agent auth =>
      obtain ⟨rfl, hnone⟩ := Endpoint.gate_eq_agent hgate
      obtain ⟨key, hkey, row, hrow, hhash, hactive, hid⟩ := hgated.agents (hagent.mp hnone)
      exact ⟨row.id, hid, key, hkey, row, hrow, hhash, hactive, rfl⟩

end Installation

/-! ## Concrete requests -/

/-- A server with an admin token, without providers. -/
def guardedSetup : Setup where
  platform := delegationPlatform
  auth := ⟨some "secret"⟩
  idp := ⟨true, []⟩
  aead := .tagged
  dates := ⟨firstDayInstant, firstDayText⟩
  isAlphanumeric := Char.isAlphanum
  signingKey := ⟨"key", 3233, 17⟩

/-- A document that is posted. -/
def posting (headers : List (String × List UInt8)) (path : String) (body : Json) (firstId : Nat) :
    HttpInput where
  event := .request ⟨⟨.post, path, headers⟩, [], .ok body⟩
    ⟨.steady opening 0, .steady opening 1 .nil, ⟨fun _ _ => .ok .null, fun _ _ => .ok .null⟩⟩
  arrival := opening
  tape := .steady opening firstId

def operators : List (String × List UInt8) := [("authorization", utf8 "Bearer secret")]

/-- A root grant for the agent with id 300. -/
def postingGrant (headers : List (String × List UInt8)) : HttpInput :=
  posting headers "/v1/principal/delegate" (.object [
    ("agent_id", .string (⟨300⟩ : Uuid).toString), ("scopes", .array [.string "read"]),
    ("expires_in_seconds", .number (.posInt 600))]) 400

/-- A principal and its agent, to which an operator grants scopes. -/
def postings : List HttpInput := [
  ⟨.restart none, opening, .steady opening 100⟩,
  posting operators "/v1/admin/principals" (.object [("external_id", .string "alice"),
    ("idp_provider", .string "idp"), ("email", .string "alice@corp"),
    ("display_name", .string "Alice")]) 200,
  posting operators "/v1/admin/agents" (.object [("name", .string "bot"),
    ("principal_type", .string "delegated"), ("owner_id", .string (⟨200⟩ : Uuid).toString)]) 300,
  postingGrant operators]

/-! ## Runs over HTTP -/

/-- What an operation comes to at the site; the others leave the site alone. -/
def Operation.siteEvent (net : IdpNetwork) : Operation → Option SiteEvent
  | call c => some (.server (.call c))
  | authorize providerName => some (.authorize providerName)
  | callback state code => some (.callback state code net)
  | _ => none

/-- The site at another time. -/
def Site.withClock (site : Site) (clock : Instant) : Site :=
  { site with world := { site.world with clock } }

/-- What an input comes to at the site: a restart, or what the operation comes to for which a
request is let through. -/
def Installation.siteEvent (setup : Setup) (i : Installation) : HttpEvent → Option SiteEvent
  | .restart _ => some (.server .restart)
  | .request req readings =>
      if i.world.up then
        match i.letThrough setup req readings.gate with
        | .ok operation => operation.siteEvent readings.net
        | .error _ => none
      else none

/-- The inputs of a site to which the requests and restarts of an installation come, in order.
Each request among them is let through for its operation, and has shown what this takes, in
the state of the site that the inputs before it have reached. All others come to nothing. -/
inductive ComesTo (setup : Setup) (token : String) (start : Installation) :
    List HttpInput → List SiteInput → Prop
  | nil : ComesTo setup token start [] []
  | unheeded {inputs : List HttpInput} {events : List SiteInput} (input : HttpInput)
      (before : ComesTo setup token start inputs events)
      (unheard : (start.run setup inputs).siteEvent setup input.event = none) :
      ComesTo setup token start (inputs ++ [input]) events
  | restarted {inputs : List HttpInput} {events : List SiteInput} (fileError : Option String)
      (arrival : Instant) (tape : Tape) (before : ComesTo setup token start inputs events) :
      ComesTo setup token start (inputs ++ [⟨.restart fileError, arrival, tape⟩])
        (events ++ [⟨.server .restart, arrival, tape⟩])
  | requested {inputs : List HttpInput} {events : List SiteInput} {operation : Operation}
      {event : SiteEvent} (req : HttpRequest) (readings : HttpReadings) (arrival : Instant)
      (tape : Tape) (before : ComesTo setup token start inputs events)
      (admitted : (start.run setup inputs).letThrough setup req readings.gate = .ok operation)
      (comes : operation.siteEvent readings.net = some event)
      (passed : operation.gate.Passed setup.platform token
        (initialSite.run setup.platform setup.idp setup.isAlphanumeric events).world.app.db
          req.toRequest) :
      ComesTo setup token start (inputs ++ [⟨.request req readings, arrival, tape⟩])
        (events ++ [⟨event, arrival, tape⟩])

section

variable {p : Platform} {idp : IdpConfig} {isAlphanumeric : Char → Bool}

/-- No step looks at the time of the step before. -/
theorem Site.step_withClock (site : Site) (clock : Instant) (input : SiteInput) :
    (site.withClock clock).step p idp isAlphanumeric input =
      site.step p idp isAlphanumeric input := by
  obtain ⟨event, arrival, tape⟩ := input
  cases event with
  | server event => cases event <;> rfl
  | authorize providerName => rfl
  | callback state code net => rfl

theorem Site.step_congr {site site' : Site} (same : site.withClock 0 = site'.withClock 0)
    (input : SiteInput) :
    site.step p idp isAlphanumeric input = site'.step p idp isAlphanumeric input := by
  rw [← site.step_withClock 0, same, site'.step_withClock 0]

end

namespace Installation

variable {setup : Setup} {token : String} {i : Installation} {operation : Operation}

/-- An operation changes the site as its event does, if it has one. -/
theorem perform_site (readings : HttpReadings) (input : HttpInput) :
    (i.perform setup operation readings input).site =
      match operation.siteEvent readings.net with
      | some event => i.site.step setup.platform setup.idp setup.isAlphanumeric
          ⟨event, input.arrival, input.tape⟩
      | none => i.site.withClock input.arrival := by
  cases operation with
  | vault call =>
      have hworld := (i.idle input.arrival).deployment.handle_world setup.platform setup.aead call
        readings.vault
      exact congrArg (Site.mk · i.pkceStore i.logins) hworld
  | _ => rfl

/-- Behind HTTP the site runs as it does on the calls of the requests that were let through. -/
theorem run_comesTo (configured : setup.auth.adminToken = some token) (nonempty : token ≠ "")
    (encryptionKeyPath : String) (keyFile : Option String) (inputs : List HttpInput) :
    ∃ events, ComesTo setup token (initialInstallation encryptionKeyPath keyFile) inputs events ∧
      ((initialInstallation encryptionKeyPath keyFile).run setup inputs).site.withClock 0 =
        (initialSite.run setup.platform setup.idp setup.isAlphanumeric events).withClock 0 := by
  induction inputs using List.reverseRecOn with
  | nil => exact ⟨[], .nil, rfl⟩
  | append_singleton inputs input ih =>
      obtain ⟨events, hcomes, hsame⟩ := ih
      obtain ⟨event, arrival, tape⟩ := input
      rw [run, List.foldl_append, List.foldl_cons, List.foldl_nil, ← run]
      generalize hi : (initialInstallation encryptionKeyPath keyFile).run setup inputs = i
        at hsame ⊢
      have hevent (event : SiteEvent) : (i.site.step setup.platform setup.idp
          setup.isAlphanumeric ⟨event, arrival, tape⟩) = initialSite.run setup.platform setup.idp
            setup.isAlphanumeric (events ++ [⟨event, arrival, tape⟩]) := by
        rw [Site.step_congr hsame, Site.run, Site.run, List.foldl_append, List.foldl_cons,
          List.foldl_nil]
      cases event with
      | restart fileError =>
          refine ⟨_, .restarted fileError arrival tape hcomes, ?_⟩
          rw [← hevent (.server .restart)]
          rfl
      | request req readings =>
          have hunheeded (h : i.siteEvent setup (.request req readings) = none) :=
            hcomes.unheeded ⟨.request req readings, arrival, tape⟩ (hi ▸ h)
          rw [step]
          dsimp only
          by_cases up : i.world.up = true
          · rw [siteEvent, if_pos up] at hunheeded
            rw [if_pos up]
            cases hthrough : i.letThrough setup req readings.gate with
            | error refusal =>
                rw [hthrough] at hunheeded
                exact ⟨events, hunheeded rfl, hsame⟩
            | ok operation =>
                rw [hthrough] at hunheeded
                dsimp only
                rw [perform_site]
                have hpassed := letThrough_passed configured nonempty hthrough
                have hdb : i.world.app.db = (initialSite.run setup.platform setup.idp
                    setup.isAlphanumeric events).world.app.db :=
                  congrArg (·.world.app.db) hsame
                rw [hdb] at hpassed
                cases hcome : operation.siteEvent readings.net with
                | none => exact ⟨events, hunheeded hcome, hsame⟩
                | some event =>
                    refine ⟨_, hcomes.requested req readings arrival tape (hi ▸ hthrough) hcome
                      hpassed, ?_⟩
                    rw [← hevent event]
          · rw [siteEvent, if_neg up] at hunheeded
            rw [if_neg up]
            exact ⟨events, hunheeded rfl, hsame⟩

theorem run_comesTo_postings :
    ∃ events, ComesTo guardedSetup "secret" (initialInstallation "" none) postings events ∧
      ((initialInstallation "" none).run guardedSetup postings).site.withClock 0 =
        (initialSite.run delegationPlatform ⟨true, []⟩ Char.isAlphanum events).withClock 0 :=
  run_comesTo rfl (by decide) "" none postings

end Installation

/-! ## Clients without a credential -/

/-- What stands behind the gates: everything but the principals and the policies, to which a
login may add. -/
def AppState.closed (app : AppState) : AppState :=
  { app with
    db := { app.db with principals := [], policies := [] }
    policyEngine := .new }

def Serving.closed (s : Serving) : AppState × List Minted := (s.app.closed, s.ledger)

theorem ignoresLogins_closed : IgnoresLogins Serving.closed where
  tick _ := rfl
  principals _ _ := rfl
  policies _ _ := rfl
  engine _ _ := rfl

def World.closed (w : World) : World := { w with app := w.app.closed, clock := 0 }

def Installation.closed (i : Installation) : Deployment :=
  { i.deployment with world := i.world.closed }

/-- A request that shows neither the admin token nor the key of an active agent. -/
def HttpInput.IsOutsiders (p : Platform) (token : String) (db : Db) (input : HttpInput) : Prop :=
  ∃ req readings, input.event = .request req readings ∧ ¬ req.ShowsToken token ∧
    ∀ id, ¬ req.ShowsKey p db id

section

variable {p : Platform} {idp : IdpConfig} {isAlphanumeric : Char → Bool} {site : Site}
  {arrival : Instant} {tape : Tape}

theorem Site.closed_authorize (providerName : String) :
    (site.step p idp isAlphanumeric ⟨.authorize providerName, arrival, tape⟩).world.closed =
      site.world.closed := by
  rw [Site.step]
  dsimp only
  split
  · rw [idpAuthorize]
    cases idp.providers.find? (·.name == providerName) <;> rfl
  · rfl

theorem Site.closed_callback (state code : String) (net : IdpNetwork) :
    (site.step p idp isAlphanumeric ⟨.callback state code net, arrival, tape⟩).world.closed =
      site.world.closed := by
  have hkept := ignoresLogins_closed.keeps_idpCallback (p := p) idp net
    (site.presentedTxn state tape) code (site.world.serving tape).next
  obtain ⟨happ, hledger⟩ := Prod.mk.inj hkept
  rw [Site.step]
  dsimp only
  split
  · rename_i hup
    have hworld : (site.afterCallback p idp state code net
        ⟨.callback state code net, arrival, tape⟩).closed = site.world.closed := by
      rw [World.closed, World.closed, hup]
      exact congrArg₂ (World.mk · · true 0) happ hledger
    split <;> exact hworld
  · rfl

end

namespace Installation

variable {setup : Setup} {token : String} {i : Installation} {operation : Operation}
  {input : HttpInput}

/-- Without a gate, an operation changes nothing behind the gates. -/
theorem perform_free (free : operation.gate = .free) (readings : HttpReadings)
    (input : HttpInput) : (i.perform setup operation readings input).closed = i.closed := by
  have hsite {site : Site} (h : site.world.closed = i.world.closed) :
      (i.withSite site).closed = i.closed :=
    congrArg (fun world => { i.deployment with world }) h
  cases operation with
  | call call => cases call <;> cases free
  | vault call => cases free
  | authorize providerName => exact hsite (Site.closed_authorize providerName)
  | callback state code => exact hsite (Site.closed_callback state code readings.net)
  | _ => rfl

theorem step_closed (configured : setup.auth.adminToken = some token) (nonempty : token ≠ "")
    (outsiders : input.IsOutsiders setup.platform token i.world.app.db) :
    (i.step setup input).closed = i.closed := by
  obtain ⟨req, readings, hevent, htoken, hkey⟩ := outsiders
  rw [step, hevent]
  dsimp only
  split
  · split
    · rename_i operation hthrough
      have hpassed := letThrough_passed configured nonempty hthrough
      cases hgate : operation.gate with
      | free => exact perform_free hgate readings input
      | admin =>
          rw [hgate] at hpassed
          exact absurd hpassed htoken
      | agent auth =>
          rw [hgate] at hpassed
          obtain ⟨id, -, hshows⟩ := hpassed
          exact absurd hshows (hkey id)
    · rfl
  · rfl

/-- Whatever clients without a credential send, and in whatever order, they change nothing but
principals, policies and pending logins. -/
theorem outsiders_confined (configured : setup.auth.adminToken = some token)
    (nonempty : token ≠ "") {inputs : List HttpInput} (outsiders : ∀ input ∈ inputs,
      input.IsOutsiders setup.platform token i.world.app.db) :
    (i.run setup inputs).closed = i.closed := by
  induction inputs generalizing i with
  | nil => rfl
  | cons input inputs ih =>
      have hstep := step_closed configured nonempty (outsiders input List.mem_cons_self)
      have hagents : (i.step setup input).world.app.db.agents = i.world.app.db.agents :=
        congrArg (·.world.app.db.agents) hstep
      rw [run, List.foldl_cons, ← run, ih, hstep]
      intro next hnext
      have hout := outsiders next (List.mem_cons_of_mem input hnext)
      simpa only [HttpInput.IsOutsiders, Request.ShowsKey, hagents] using hout

theorem posting_isOutsiders (token path : String) (body : Json) (firstId : Nat) (p : Platform)
    (db : Db) : (posting [] path body firstId).IsOutsiders p token db :=
  ⟨_, _, rfl, nofun, fun _ ⟨_, hkey, _⟩ => nomatch hkey⟩

theorem outsiders_confined_postings :
    let i := (initialInstallation "" none).run guardedSetup postings
    (i.run guardedSetup [postingGrant [], postingGrant []]).closed = i.closed := by
  have configured : guardedSetup.auth.adminToken = some "secret" := rfl
  refine outsiders_confined configured (by decide) ?_
  intro input hinput
  simp only [List.mem_cons, List.not_mem_nil, or_false, or_self] at hinput
  rw [hinput]
  exact posting_isOutsiders _ _ _ _ _ _

end Installation

/-! ## What is signed -/

theorem World.signed_step (p : Platform) (w : World) (input : Input) {m : Minted}
    (h : m ∈ (w.step p input).ledger) : m ∈ w.ledger ∨ ∃ call, input.event = .call call ∧
      ∀ token db req, (Operation.call call).gate.Passed p token db req →
        m.origin.Passed p token db req := by
  change m ∈ (w.step p input).guarded.ledger at h
  have heffect := World.step_effect (p := p) w input
  generalize (w.step p input).guarded = after at heffect h
  cases heffect with
  | kept | revoked | stopped | restored | restarted => exact .inl h
  | @access auth req caller s₁ s₂ eval minted after event allowed signed mints =>
      rw [mints.ledger, List.mem_append, List.mem_singleton] at h
      refine h.imp_right ?_
      rintro rfl
      refine ⟨_, event, ?_⟩
      rintro token db request ⟨id, hauth, hkey⟩
      have hresolved := resolveCaller_resolved allowed.resolved
      obtain rfl := Option.some.inj (hauth.symm.trans hresolved.authenticated)
      rw [(sign_signed signed).1, hresolved.agentId]
      exact hkey
  | @delegation auth req presenter claims s₁ s₂ expiry minted after event allowed signed mints =>
      rw [mints.ledger, List.mem_append, List.mem_singleton] at h
      refine h.imp_right ?_
      rintro rfl
      refine ⟨_, event, ?_⟩
      rintro token db request ⟨id, hauth, hkey⟩
      obtain rfl := Option.some.inj (allowed.authenticated.symm.trans hauth)
      rw [(sign_signed signed).1]
      exact hkey
  | grant event stored signed mints =>
      rw [mints.ledger, List.mem_append, List.mem_singleton] at h
      refine h.imp_right ?_
      rintro rfl
      refine ⟨_, event, ?_⟩
      intro token db request hpassed
      rw [(sign_signed signed).1]
      exact hpassed

namespace Installation

variable {setup : Setup} {token : String} {i : Installation}

theorem signed_step (configured : setup.auth.adminToken = some token) (nonempty : token ≠ "")
    {input : HttpInput} {m : Minted} (h : m ∈ (i.step setup input).world.ledger) :
    m ∈ i.world.ledger ∨ ∃ req readings, input.event = .request req readings ∧
      m.origin.Passed setup.platform token i.world.app.db req.toRequest := by
  obtain ⟨event, arrival, tape⟩ := input
  cases event with
  | restart fileError =>
      obtain hold | ⟨call, hcall, -⟩ := World.signed_step setup.platform i.world
        ⟨.restart, arrival, tape⟩ h
      · exact .inl hold
      · cases hcall
  | request req readings =>
      rw [step] at h
      dsimp only at h
      split at h
      · split at h
        · rename_i operation hthrough
          have hpassed := letThrough_passed configured nonempty hthrough
          have hfree (free : operation.gate = .free) : m ∈ i.world.ledger := by
            have hclosed : (i.perform setup operation readings _).closed = i.closed :=
              perform_free free readings ⟨.request req readings, arrival, tape⟩
            have hledger := congrArg (·.world.ledger) hclosed
            exact hledger ▸ h
          cases operation with
          | call call =>
              obtain hold | ⟨call', hcall, hsigned⟩ := World.signed_step setup.platform i.world
                ⟨.call call, arrival, tape⟩ h
              · exact .inl hold
              · cases hcall
                exact .inr ⟨req, readings, rfl, hsigned _ _ _ hpassed⟩
          | vault call =>
              have hworld := (i.idle arrival).deployment.handle_world setup.platform setup.aead
                call readings.vault
              have hledger := congrArg World.ledger hworld
              exact .inl (hledger ▸ h)
          | _ => exact .inl (hfree rfl)
        · exact .inl h
      · exact .inl h

/-- Every token that is ever signed is signed for a request that has shown the key of the
agent that gets it or hands it on, or the admin token for a root grant. -/
theorem ledger_credentialed (configured : setup.auth.adminToken = some token)
    (nonempty : token ≠ "") {encryptionKeyPath : String} {keyFile : Option String}
    {inputs : List HttpInput} {m : Minted}
    (signed : m ∈ ((initialInstallation encryptionKeyPath keyFile).run setup inputs).world.ledger) :
    ∃ before input req readings, before ++ [input] <+: inputs ∧
      input.event = .request req readings ∧ m.origin.Passed setup.platform token
        ((initialInstallation encryptionKeyPath keyFile).run setup before).world.app.db
          req.toRequest := by
  induction inputs using List.reverseRecOn with
  | nil => cases signed
  | append_singleton inputs input ih =>
      rw [run, List.foldl_append, List.foldl_cons, List.foldl_nil, ← run] at signed
      obtain hold | ⟨req, readings, hevent, hpassed⟩ := signed_step configured nonempty signed
      · obtain ⟨before, earlier, req, readings, hprefix, hrest⟩ := ih hold
        exact ⟨before, earlier, req, readings, hprefix.trans (List.prefix_append inputs [input]),
          hrest⟩
      · exact ⟨inputs, input, req, readings, List.prefix_rfl, hevent, hpassed⟩

theorem ledger_credentialed_postings :
    let i (inputs : List HttpInput) := (initialInstallation "" none).run guardedSetup inputs
    (i postings).world.ledger.length = 1 ∧ ∀ m ∈ (i postings).world.ledger,
      ∃ before input req readings, before ++ [input] <+: postings ∧
        input.event = .request req readings ∧
          m.origin.Passed delegationPlatform "secret" (i before).world.app.db req.toRequest := by
  have configured : guardedSetup.auth.adminToken = some "secret" := rfl
  exact ⟨by decide +kernel, fun m signed => ledger_credentialed configured (by decide) signed⟩

end Installation

end Patroclus
