import Patroclus.Api.Routes
import Patroclus.Api.Server

/-!
# The gate and the route table

The middleware tells the domain of a request from the beginning of its path, and the router
finds the handler by its templates. The two agree because the beginning of a path is told
segment by segment too, and the templates are fixed where it ends. So no value of a
parameter carries a request past the gate of its handler.
-/

namespace Patroclus

open Foundation

namespace Route

/-- A template lies under one of some bases. -/
def Under (route : Route) (bases : List String) : Prop :=
  ∃ base ∈ bases, segments base <+: segments route.path

instance (route : Route) (bases : List String) : Decidable (route.Under bases) :=
  inferInstanceAs (Decidable (∃ base ∈ bases, _))

def IsOperators (route : Route) : Prop :=
  route.Under ["/v1/admin", "/v1/vault", "/v1/sessions", "/v1/principal"]

def IsAgents (route : Route) : Prop := route.Under ["/v1/agent"]

/-- The templates that are public by design. -/
def IsPublic (route : Route) : Prop :=
  route.path ∈ ["/", "/health", "/health/ready", "/metrics", "/.well-known/jwks.json"] ∨
    route.Under ["/v1/idp"]

instance (route : Route) : Decidable route.IsOperators := inferInstanceAs (Decidable (Under _ _))

instance (route : Route) : Decidable route.IsAgents := inferInstanceAs (Decidable (Under _ _))

instance (route : Route) : Decidable route.IsPublic := inferInstanceAs (Decidable (_ ∨ _))

end Route

/-- What a request whose handler runs has shown. -/
structure Gated (p : Platform) (token : String) (route : Route) (req : Request) (db : Db)
    (agent : Option Uuid) : Prop where
  operators : route.IsOperators → req.header "authorization" = some (utf8 ("Bearer " ++ token))
  agents : route.IsAgents → ∃ key, req.header "x-client-key" = some (utf8 key) ∧
    ∃ row ∈ db.agents, row.clientKeyHash = some (hashClientKey p key) ∧ row.status = .active ∧
      agent = some row.id

/-- Every template of the table is in exactly one of the three groups. -/
theorem allRoutes_domains : ∀ route ∈ allRoutes,
    (route.IsOperators ∧ ¬ route.IsAgents) ∨ (¬ route.IsOperators ∧ route.IsAgents) ∨
      (¬ route.IsOperators ∧ ¬ route.IsAgents ∧ route.IsPublic) := by decide +kernel

theorem isAdminPath_iff {route : Route} : isAdminPath route.path = true ↔ route.IsOperators :=
  pathsStartWith_iff

theorem isAgentPath_iff {route : Route} : isAgentPath route.path = true ↔ route.IsAgents :=
  pathsStartWith_iff

section

variable {p : Platform} {auth : AuthConfig} {token : String} {route : Route} {req : Request}
  {s finish : Serving} {endpoint : Endpoint} {agent : Option Uuid}

/-- Whatever the path, a handler runs only behind the gate of its template. -/
theorem gated_of_handled (configured : auth.adminToken = some token) (nonempty : token ≠ "")
    (hroute : route ∈ allRoutes) (handler : endpoint ∈ route.router.endpoints)
    (run : createRouter p auth req s = (.ok (.ok (.handled endpoint agent)), finish)) :
    Gated p token route req s.app.db agent := by
  obtain ⟨authenticated, middle, hthrough, hnext⟩ := authMiddleware_ok run
  have hdispatch : dispatch req authenticated = .handled endpoint agent := by
    rw [Action.pure_run, Prod.mk.injEq, Except.ok.injEq] at hnext
    exact hnext.1
  obtain ⟨rfl, route', hroute', hmatched, hendpoint⟩ := dispatch_handled hdispatch
  obtain rfl := eq_of_endpoint hroute hroute' handler hendpoint
  have hadmin := isAdminPath_of_matches hroute hmatched
  have hagent := isAgentPath_of_matches hroute hmatched
  constructor
  · intro hoperators
    rw [isAdminPath_iff.mpr hoperators] at hadmin
    cases hthrough with
    | admin path presented =>
        exact header_of_presentedToken nonempty (presented token configured)
    | agent path agentPath key mem hash active =>
        rw [path] at hadmin
        cases hadmin
    | free path agentPath =>
        rw [path] at hadmin
        cases hadmin
  · intro hagents
    rw [isAgentPath_iff.mpr hagents] at hagent
    cases hthrough with
    | admin path presented =>
        rw [hadmin, isAdminPath_iff] at path
        obtain ⟨-, h⟩ | ⟨h, -⟩ | ⟨h, -, -⟩ := allRoutes_domains route hroute
        · exact absurd hagents h
        · exact absurd path h
        · exact absurd path h
    | agent path agentPath key mem hash active =>
        exact ⟨_, header_of_presentedKey key, _, mem, hash, active, rfl⟩
    | free path agentPath =>
        rw [agentPath] at hagent
        cases hagent

/-- With an admin token configured (which is never empty, by `AuthConfig.fromEnv_nonempty`),
the handler of every template of the table runs behind the gate of its domain, whatever values
fill the parameters of the path; the templates outside both domains are the public ones. -/
theorem authGate_covers (configured : auth.adminToken = some token) (nonempty : token ≠ "")
    (hroute : route ∈ allRoutes) :
    (¬ route.IsOperators → ¬ route.IsAgents → route.IsPublic) ∧
      ∀ (value : List Char → List Char) (method : Method) (headers : List (String × List UInt8)),
        ∀ endpoint ∈ route.router.endpoints, ∀ (s finish : Serving) (agent : Option Uuid),
          createRouter p auth ⟨method, route.fill value, headers⟩ s =
            (.ok (.ok (.handled endpoint agent)), finish) →
          Gated p token route ⟨method, route.fill value, headers⟩ s.app.db agent := by
  constructor
  · intro hoperators hagents
    obtain ⟨h, -⟩ | ⟨-, h⟩ | ⟨-, -, h⟩ := allRoutes_domains route hroute
    · exact absurd h hoperators
    · exact absurd h hagents
    · exact h
  · intro value method headers endpoint handler s finish agent run
    exact gated_of_handled configured nonempty hroute handler run

end

/-- The route of the emergency stop. -/
def killRoute : Route := ⟨"/v1/admin/agents/{id}/kill", .onPost .killAgent⟩

/-- An operator stops an agent. -/
def killing : Request where
  method := .post
  path := killRoute.fill fun _ => "300".toList
  headers := [("authorization", utf8 "Bearer secret")]

theorem killing_handled : ∃ finish, createRouter .unsigned ⟨some "secret"⟩ killing
    (initialWorld.serving (.steady opening 0)) = (.ok (.ok (.handled .killAgent none)), finish) ∧
      Gated .unsigned "secret" killRoute killing initialWorld.app.db none := by
  have hrun : createRouter .unsigned ⟨some "secret"⟩ killing
      (initialWorld.serving (.steady opening 0)) =
        (.ok (.ok (.handled .killAgent none)), initialWorld.serving (.steady opening 0)) := by
    rfl
  have hgate := @authGate_covers .unsigned ⟨some "secret"⟩ "secret" killRoute rfl (by decide)
    (by decide)
  exact ⟨_, hrun, hgate.2 _ _ _ _ (by decide) _ _ _ hrun⟩

end Patroclus
