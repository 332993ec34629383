import Patroclus.Api.Auth
import Patroclus.Foundation.Path

/-!
# The route table

`all_routes` lists the path templates and the handlers of their methods. A template is
matched segment by segment; a parameter stands for one segment, which is not empty. No two
templates match the same path, so the order in which a router tries them is of no account.

The handlers stand here by their names: what a request leads to is which of them runs, and
as which agent.
-/

namespace Patroclus

open Foundation

/-- The handlers of the routes. -/
inductive Endpoint where
  | dashboard
  | health
  | healthReady
  | prometheusMetrics
  | jwks
  | requestAccess
  | checkAccess
  | delegate
  | approvalStatus
  | principalDelegate
  | listPrincipalGrants
  | revokeGrant
  | listPendingApprovals
  | approveRequest
  | denyRequest
  | createAgent
  | listAgents
  | getAgent
  | createPrincipal
  | createResource
  | listResources
  | createPolicy
  | listPolicies
  | listAudit
  | revokeToken
  | storeCredential
  | listVaultCredentials
  | vendCredential
  | generateVaultKey
  | listSessions
  | killSession
  | killAgent
  | restoreAgent
  | recordSpend
  | provisionClientKey
  | idpAuthorize
  | idpCallback
  | idpUserinfo
  | listIdpProviders
deriving DecidableEq, Repr

/-- The handlers of a path by method. -/
structure MethodRouter where
  get : Option Endpoint
  post : Option Endpoint
deriving DecidableEq, Repr

namespace MethodRouter

def onGet (endpoint : Endpoint) : MethodRouter := ⟨some endpoint, none⟩

def onPost (endpoint : Endpoint) : MethodRouter := ⟨none, some endpoint⟩

/-- `post(endpoint).get(other)`. -/
def andGet (router : MethodRouter) (other : Endpoint) : MethodRouter :=
  { router with get := some other }

/-- The handler of a method; a `HEAD` request is answered by the handler of `GET`. -/
def endpoint (router : MethodRouter) : Method → Option Endpoint
  | .get | .head => router.get
  | .post => router.post
  | .other _ => none

def endpoints (router : MethodRouter) : List Endpoint := router.get.toList ++ router.post.toList

theorem endpoint_mem {router : MethodRouter} {method : Method} {endpoint : Endpoint}
    (h : router.endpoint method = some endpoint) : endpoint ∈ router.endpoints := by
  unfold MethodRouter.endpoint at h
  split at h
  · simp [endpoints, h]
  · simp [endpoints, h]
  · simp [endpoints, h]
  · cases h

end MethodRouter

structure Route where
  path : String
  router : MethodRouter
deriving DecidableEq, Repr

open MethodRouter in
def allRoutes : List Route := [
  -- Dashboard
  ⟨"/", onGet .dashboard⟩,
  -- Health
  ⟨"/health", onGet .health⟩,
  ⟨"/health/ready", onGet .healthReady⟩,
  -- Prometheus metrics
  ⟨"/metrics", onGet .prometheusMetrics⟩,
  -- Well-known
  ⟨"/.well-known/jwks.json", onGet .jwks⟩,
  -- Agent-facing
  ⟨"/v1/agent/request-access", onPost .requestAccess⟩,
  ⟨"/v1/agent/check", onPost .checkAccess⟩,
  ⟨"/v1/agent/delegate", onPost .delegate⟩,
  ⟨"/v1/agent/approval-status/{id}", onGet .approvalStatus⟩,
  -- Principal-facing
  ⟨"/v1/principal/delegate", onPost .principalDelegate⟩,
  ⟨"/v1/principal/grants", onGet .listPrincipalGrants⟩,
  ⟨"/v1/principal/grants/{id}/revoke", onPost .revokeGrant⟩,
  ⟨"/v1/principal/approvals", onGet .listPendingApprovals⟩,
  ⟨"/v1/principal/approvals/{id}/approve", onPost .approveRequest⟩,
  ⟨"/v1/principal/approvals/{id}/deny", onPost .denyRequest⟩,
  -- Admin: agents
  ⟨"/v1/admin/agents", (onPost .createAgent).andGet .listAgents⟩,
  ⟨"/v1/admin/agents/{id}", onGet .getAgent⟩,
  -- Admin: principals, resources, policies, audit, token revocation
  ⟨"/v1/admin/principals", onPost .createPrincipal⟩,
  ⟨"/v1/admin/resources", (onPost .createResource).andGet .listResources⟩,
  ⟨"/v1/admin/policies", (onPost .createPolicy).andGet .listPolicies⟩,
  ⟨"/v1/admin/audit", onGet .listAudit⟩,
  ⟨"/v1/admin/tokens/{jti}/revoke", onPost .revokeToken⟩,
  -- Vault
  ⟨"/v1/vault/credentials", (onPost .storeCredential).andGet .listVaultCredentials⟩,
  ⟨"/v1/vault/vend", onPost .vendCredential⟩,
  ⟨"/v1/vault/generate-key", onPost .generateVaultKey⟩,
  -- Session management
  ⟨"/v1/sessions", onGet .listSessions⟩,
  ⟨"/v1/sessions/{id}/kill", onPost .killSession⟩,
  -- Kill switch
  ⟨"/v1/admin/agents/{id}/kill", onPost .killAgent⟩,
  ⟨"/v1/admin/agents/{id}/restore", onPost .restoreAgent⟩,
  ⟨"/v1/admin/agents/{id}/spend", onPost .recordSpend⟩,
  -- Admin: client keys of agents
  ⟨"/v1/admin/agents/{id}/client-key", onPost .provisionClientKey⟩,
  -- IdP federation
  ⟨"/v1/idp/authorize/{provider}", onGet .idpAuthorize⟩,
  ⟨"/v1/idp/callback", onGet .idpCallback⟩,
  ⟨"/v1/idp/userinfo", onPost .idpUserinfo⟩,
  ⟨"/v1/idp/providers", onGet .listIdpProviders⟩]

/-- The segments of a path; the first is the empty one before the leading slash. -/
def segments (path : String) : List (List Char) := path.toList.splitOn '/'

/-- A segment in braces is a parameter. -/
def readSegment (text : List Char) : Segment (List Char) :=
  if text.head? = some '{' && text.getLast? = some '}' then .parameter text else .fixed text

namespace Route

def template (route : Route) : List (Segment (List Char)) := (segments route.path).map readSegment

def matchesPath (route : Route) (path : String) : Bool :=
  Segment.matchAll (fun segment => !segment.isEmpty) route.template (segments path)

/-- The path in which the parameters have the given values. -/
def fill (route : Route) (value : List Char → List Char) : String :=
  String.ofList (['/'].intercalate (route.template.map (Segment.fill value)))

end Route

/-- Where the router leads a request that was let through. -/
inductive Routed where
  | notFound
  | methodNotAllowed
  | handled (endpoint : Endpoint) (agent : Option Uuid)
deriving DecidableEq, Repr

def dispatch (req : Request) (agent : Option Uuid) : Routed :=
  match allRoutes.find? (·.matchesPath req.path) with
  | none => .notFound
  | some route =>
      match route.router.endpoint req.method with
      | none => .methodNotAllowed
      | some endpoint => .handled endpoint agent

/-- The router runs behind the middleware. The layers around both, for metrics, traces and
CORS, lead no request to a handler and are left out. -/
def createRouter (p : Platform) (auth : AuthConfig) (req : Request) :
    Handler (Except Unauthorized Routed) :=
  authMiddleware p auth req fun agent => pure (dispatch req agent)

/-! ## Segments -/

theorem pathsStartWith_iff {path : String} {bases : List String} :
    pathsStartWith path bases = true ↔ ∃ base ∈ bases, segments base <+: segments path := by
  rw [pathsStartWith]
  rw [List.any_eq_true]
  refine exists_congr fun base => and_congr_right fun _ => ?_
  have hslash : (base ++ "/").toList = base.toList ++ ['/'] := by
    rw [String.toList_append]
    rfl
  rw [Bool.or_eq_true, beq_iff_eq, startsWith_iff, hslash, ← String.toList_inj]
  exact below_iff

theorem slash_not_mem_segments {path : String} {segment : List Char}
    (h : segment ∈ segments path) : '/' ∉ segment := by
  rw [segments, List.splitOn_eq_splitOnP] at h
  intro hslash
  have hfree := separatorFree_of_mem_splitOnP h '/' hslash
  rw [beq_self_eq_true] at hfree
  cases hfree

theorem text_readSegment (text : List Char) : (readSegment text).text = text := by
  rw [readSegment]
  split <;> rfl

namespace Route

theorem template_text (route : Route) : route.template.map Segment.text = segments route.path := by
  rw [template, List.map_map]
  exact List.map_congr_left (fun text _ => text_readSegment text) |>.trans (List.map_id _)

end Route

/-! ## The table -/

/-- Parameters come after the segments that tell the domain of a path. -/
theorem allRoutes_fixed : ∀ route ∈ allRoutes, ∀ segment ∈ route.template.take 3,
    segment.isFixed := by decide +kernel

theorem allRoutes_apart : allRoutes.Pairwise fun route route' =>
    Segment.apart route.template route'.template := by decide +kernel

theorem allRoutes_endpoints : (allRoutes.flatMap fun route => route.router.endpoints).Nodup := by
  decide

section

variable {route route' : Route} {path : String} {bases : List String} {endpoint : Endpoint}
  {req : Request} {agent : Option Uuid} {value : List Char → List Char}

/-- A template of the table is below the same bases as the paths that it matches. -/
theorem pathsStartWith_of_matches (hroute : route ∈ allRoutes) (matched : route.matchesPath path)
    (short : ∀ base ∈ bases, (segments base).length ≤ 3) :
    pathsStartWith path bases = pathsStartWith route.path bases := by
  rw [Bool.eq_iff_iff, pathsStartWith_iff, pathsStartWith_iff]
  refine exists_congr fun base => and_congr_right fun hbase => ?_
  rw [← route.template_text]
  apply Segment.prefix_iff_of_matchAll matched
  intro segment hsegment
  have htake := List.take_subset_take_left route.template (short base hbase) hsegment
  exact allRoutes_fixed route hroute segment htake

theorem isAdminPath_of_matches (hroute : route ∈ allRoutes) (matched : route.matchesPath path) :
    isAdminPath path = isAdminPath route.path :=
  pathsStartWith_of_matches hroute matched (by decide)

theorem isAgentPath_of_matches (hroute : route ∈ allRoutes) (matched : route.matchesPath path) :
    isAgentPath path = isAgentPath route.path :=
  pathsStartWith_of_matches hroute matched (by decide)

/-- A path is matched by one template of the table at most. -/
theorem eq_of_matches (hroute : route ∈ allRoutes) (hroute' : route' ∈ allRoutes)
    (matched : route.matchesPath path) (matched' : route'.matchesPath path) : route = route' := by
  have hapart : allRoutes.Pairwise fun route route' =>
      ¬ (route.matchesPath path = true ∧ route'.matchesPath path = true) :=
    allRoutes_apart.imp fun happart ⟨hmatched, hmatched'⟩ => by
      have hnot := Segment.not_matchAll_of_apart happart hmatched
      exact absurd hmatched' (by rw [Route.matchesPath, hnot]; nofun)
  by_contra hne
  have : Std.Symm fun route route' : Route =>
      ¬ (route.matchesPath path = true ∧ route'.matchesPath path = true) :=
    ⟨fun _ _ h h' => h h'.symm⟩
  exact hapart.forall hroute hroute' hne ⟨matched, matched'⟩

/-- A handler belongs to one template of the table. -/
theorem eq_of_endpoint (hroute : route ∈ allRoutes) (hroute' : route' ∈ allRoutes)
    (hendpoint : endpoint ∈ route.router.endpoints)
    (hendpoint' : endpoint ∈ route'.router.endpoints) : route = route' := by
  have hdisjoint := (List.nodup_flatMap.mp allRoutes_endpoints).2
  by_contra hne
  have : Std.Symm (Function.onFun List.Disjoint fun route : Route => route.router.endpoints) :=
    ⟨fun _ _ h => h.symm⟩
  exact hdisjoint.forall hroute hroute' hne hendpoint hendpoint'

theorem dispatch_handled {agent' : Option Uuid}
    (h : dispatch req agent = .handled endpoint agent') : agent' = agent ∧
      ∃ route ∈ allRoutes, route.matchesPath req.path = true ∧
        endpoint ∈ route.router.endpoints := by
  rw [dispatch] at h
  split at h
  · cases h
  · rename_i route hfind
    split at h
    · cases h
    · rename_i found hfound
      cases h
      have hmatched := List.find?_some hfind
      exact ⟨rfl, route, List.mem_of_find?_eq_some hfind, hmatched,
        MethodRouter.endpoint_mem hfound⟩

theorem dispatch_of_matches (hroute : route ∈ allRoutes) (matched : route.matchesPath req.path)
    (hendpoint : route.router.endpoint req.method = some endpoint) :
    dispatch req agent = .handled endpoint agent := by
  rw [dispatch]
  cases hfind : allRoutes.find? (·.matchesPath req.path) with
  | none => exact absurd matched (List.find?_eq_none.mp hfind route hroute)
  | some found =>
      have hmatched := List.find?_some hfind
      rw [eq_of_matches (List.mem_of_find?_eq_some hfind) hroute hmatched matched]
      dsimp only
      rw [hendpoint]

/-- A template matches what it is filled to. -/
theorem matchesPath_fill (values : ∀ segment ∈ route.template, segment.isFixed = false →
    value segment.text ≠ [] ∧ '/' ∉ value segment.text) :
    route.matchesPath (route.fill value) = true := by
  have hfree : ∀ piece ∈ route.template.map (Segment.fill value), '/' ∉ piece := by
    intro piece hpiece
    obtain ⟨segment, hsegment, rfl⟩ := List.mem_map.mp hpiece
    have htext : segment.text ∈ segments route.path := by
      rw [← route.template_text]
      exact List.mem_map_of_mem hsegment
    cases segment with
    | fixed text => exact slash_not_mem_segments htext
    | parameter text => exact (values _ hsegment rfl).2
  have hnonempty : route.template.map (Segment.fill value) ≠ [] := by
    simp [Route.template, segments, List.splitOn_ne_nil]
  rw [Route.matchesPath, Route.fill, segments, String.toList_ofList,
    List.splitOn_intercalate _ hfree hnonempty]
  apply Segment.matchAll_fill
  intro segment hsegment hparameter
  simpa using (values segment hsegment hparameter).1

/-- A filled template leads to its own handler. -/
theorem dispatch_fill (hroute : route ∈ allRoutes) (values : ∀ segment ∈ route.template,
    segment.isFixed = false → value segment.text ≠ [] ∧ '/' ∉ value segment.text)
    (path : req.path = route.fill value)
    (hendpoint : route.router.endpoint req.method = some endpoint) :
    dispatch req agent = .handled endpoint agent :=
  dispatch_of_matches hroute (path ▸ matchesPath_fill values) hendpoint

end

end Patroclus
