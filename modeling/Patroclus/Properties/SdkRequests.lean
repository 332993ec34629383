import Patroclus.Sdk.Methods

/-!
# The server understands the SDK

Each method of the SDK's client writes a path and a document, and the router and the
extractors of the server read them. What is read is what the method is for, argument by
argument; where an argument is no id, no lifetime or no kind of agent, nothing is read.
-/

namespace Patroclus

open Foundation Serde

/-! ## Paths -/

theorem Route.segments_fill {route : Route} {value : List Char → List Char}
    (values : ∀ segment ∈ route.template, segment.isFixed = false →
      '/' ∉ value segment.text) :
    segments (route.fill value) = route.template.map (Segment.fill value) := by
  have hfree : ∀ piece ∈ route.template.map (Segment.fill value), '/' ∉ piece := by
    intro piece hpiece
    obtain ⟨segment, hsegment, rfl⟩ := List.mem_map.mp hpiece
    cases hfixed : segment.isFixed with
    | false =>
        have hvalue := values segment hsegment hfixed
        cases segment with
        | fixed text => cases hfixed
        | parameter text => exact hvalue
    | true =>
        cases segment with
        | fixed text =>
            have hmem : text ∈ segments route.path := by
              rw [← route.template_text]
              exact List.mem_map_of_mem hsegment
            exact slash_not_mem_segments hmem
        | parameter text => cases hfixed
  have hnonempty : route.template.map (Segment.fill value) ≠ [] := by
    simp [Route.template, segments, List.splitOn_ne_nil]
  rw [Route.fill, segments, String.toList_ofList, List.splitOn_intercalate _ hfree hnonempty]

theorem intercalate_around {sep : Char} (before after : List (List Char)) (piece : List Char) :
    [sep].intercalate (before ++ piece :: after) =
      before.flatMap (· ++ [sep]) ++ piece ++ after.flatMap (sep :: ·) := by
  induction before with
  | nil =>
      induction after generalizing piece with
      | nil => simp
      | cons next after ih =>
          have hnext := ih next
          simp only [List.nil_append, List.flatMap_nil] at hnext ⊢
          rw [List.intercalate_cons_cons, hnext]
          simp
  | cons head before ih =>
      obtain ⟨next, rest, hrest⟩ := List.exists_cons_of_ne_nil
        (List.append_ne_nil_of_right_ne_nil before (List.cons_ne_nil piece after))
      rw [List.cons_append, hrest, List.intercalate_cons_cons, ← hrest, ih]
      simp

/-- What a template with one parameter is filled to. -/
theorem Route.fill_eq (route : Route) (before after : List String) (name : String)
    (template : route.template = before.map (fun text => .fixed text.toList) ++
      .parameter name.toList :: after.map (fun text => .fixed text.toList)) (text : String) :
    (route.fill fun _ => text.toList) =
      String.join (before.map (· ++ "/")) ++ text ++ String.join (after.map ("/" ++ ·)) := by
  have hfixed (texts : List String) : (texts.map fun text => Segment.fixed text.toList).map
      (Segment.fill fun _ => text.toList) = texts.map (·.toList) := by
    rw [List.map_map]
    rfl
  rw [Route.fill, template, List.map_append, List.map_cons, hfixed, hfixed, intercalate_around,
    ← String.toList_inj]
  simp [List.flatMap_map, Segment.fill]

section

variable {p : Platform} {dates : Dates} {auth : Option Uuid} {req : HttpRequest}
  {endpoint : Endpoint} {text : String} {document : Json}

theorem Sdk.IsPathText.nonempty (h : Sdk.IsPathText text) : text.toList ≠ [] := by
  intro hnil
  exact h.1 (String.toList_inj.mp hnil)

theorem Sdk.IsPathText.notMem (h : Sdk.IsPathText text) {c : Char} (other : c.isAlphanum = false)
    (hyphen : c ≠ '-') (underscore : c ≠ '_') : c ∉ text.toList := by
  intro hc
  obtain halnum | rfl | rfl := h.2 c hc
  · rw [other] at halnum
    cases halnum
  · exact hyphen rfl
  · exact underscore rfl

theorem findSome?_fill {template : List (Segment (List Char))} {piece : List Char}
    (parameter : template.any (!·.isFixed) = true) :
    (template.zip (template.map (Segment.fill fun _ => piece))).findSome?
      (fun (segment, piece) => if segment.isFixed then none else some piece) = some piece := by
  induction template with
  | nil => cases parameter
  | cons head template ih =>
      rw [List.map_cons, List.zip_cons_cons, List.findSome?_cons]
      cases head with
      | parameter name => rfl
      | fixed text => exact ih parameter

/-- In a path, the parameter of a template is the text that stands for it. -/
theorem pathString_fill (route : Route) (hroute : route ∈ allRoutes) (h : Sdk.IsPathText text)
    (parameter : route.template.any (!·.isFixed) = true)
    (path : req.path = route.fill fun _ => text.toList) : pathString req = .ok text := by
  have hslash : '/' ∉ text.toList := h.notMem (by decide) (by decide) (by decide)
  have hpercent : '%' ∉ text.toList := h.notMem (by decide) (by decide) (by decide)
  have hmatched : route.matchesPath req.path = true := by
    rw [path]
    exact matchesPath_fill fun _ _ _ => ⟨h.nonempty, hslash⟩
  have hfind : allRoutes.find? (·.matchesPath req.path) = some route := by
    cases hfound : allRoutes.find? (·.matchesPath req.path) with
    | none => exact absurd hmatched (List.find?_eq_none.mp hfound route hroute)
    | some found =>
        have hfoundMatches := List.find?_some hfound
        rw [eq_of_matches (List.mem_of_find?_eq_some hfound) hroute hfoundMatches hmatched]
  have hsegment : pathSegment req.path = some text.toList := by
    rw [pathSegment, hfind, Option.bind_eq_bind, Option.bind_some, path,
      Route.segments_fill fun _ _ _ => hslash]
    exact findSome?_fill parameter
  rw [pathString, hsegment, Option.map_some, Option.bind_some,
    percentDecodeLenient_of_notMem hpercent, fromUtf8_utf8, String.ofList_toList]
  rfl

/-! ## Extracting -/

theorem toOption_bind {ε α β : Type} (x : Except ε α) (next : α → Except ε β) :
    (x >>= next).toOption = x.toOption.bind fun a => (next a).toOption := by
  cases x <;> rfl

theorem toOption_elim {ε α : Type} (x : Option α) (e : ε) :
    (x.elim (.error e) .ok : Except ε α).toOption = x := by
  cases x <;> rfl

theorem toOption_jsonBody {α : Type} (read : Json → Option α) (body : req.body = .ok document) :
    (jsonBody read req).toOption = read document := by
  rw [jsonBody, body]
  exact toOption_elim _ _

theorem toOption_pathUuid (h : pathString req = .ok text) :
    (pathUuid p req).toOption = p.parseUuid text := by
  rw [pathUuid, toOption_bind, h]
  exact toOption_elim _ _

theorem toOption_pathUuid_jsonBody {α : Type} (read : Json → Option α)
    (wrap : Uuid → α → Operation) (h : pathString req = .ok text)
    (body : req.body = .ok document) :
    (do let id ← pathUuid p req; return wrap id (← jsonBody read req)).toOption =
      do return wrap (← p.parseUuid text) (← read document) := by
  rw [toOption_bind, toOption_pathUuid h]
  cases p.parseUuid text with
  | none => rfl
  | some id =>
      rw [Option.bind_some, toOption_bind, toOption_jsonBody read body]
      rfl

theorem operationOf_handled (h : dispatch req.toRequest auth = .handled endpoint auth) :
    operationOf p dates auth req = (extract p dates endpoint auth req).toOption := by
  rw [operationOf, h]

/-- Where the router leads a request to a path without a parameter. -/
theorem operationOf_path (route : Route) (hroute : route ∈ allRoutes)
    (matched : route.matchesPath route.path = true) (path : req.path = route.path)
    (hendpoint : route.router.endpoint req.method = some endpoint) :
    operationOf p dates auth req = (extract p dates endpoint auth req).toOption := by
  rw [← path] at matched
  exact operationOf_handled (dispatch_of_matches hroute matched hendpoint)

end

namespace Sdk

/-! ## Documents -/

section

variable {p : Platform} {dates : Dates}

theorem asU64_int (n : Int) : (int n).asU64 = seconds n := by
  rw [int, seconds]
  split
  · rfl
  · split <;> rfl

theorem deserialize_context (sessionId : String) :
    RequestContext.deserialize (.object [("session_id", .string sessionId)]) =
      some ⟨some sessionId⟩ := by
  rw [RequestContext.deserialize, structFields_object (by simp)]
  simp [Json.asStr]

theorem deserialize_access (request : AccessRequest) :
    Patroclus.AccessRequest.deserialize p request.buildAccessPayload = request.meaning p := by
  rw [AccessRequest.buildAccessPayload, AccessRequest.meaning]
  cases given request.sessionId <;> cases given request.delegationToken <;>
    · simp only [Json.insertField, String.reduceLT, String.reduceEq, if_true, if_false]
      rw [Patroclus.AccessRequest.deserialize, structFields_object (by simp)]
      simp [Json.asStr, uuid, strings_map, deserialize_context]

theorem deserialize_delegate (parentGrantToken subAgentId : String) (scopes : List String)
    (expiresInSeconds : Int) : DelegateRequest.deserialize p (.object [
        ("parent_grant_token", .string parentGrantToken), ("sub_agent_id", .string subAgentId),
        ("scopes", strings scopes), ("expires_in_seconds", int expiresInSeconds)]) = do
      return {
        parentGrantToken := parentGrantToken
        subAgentId := ← p.parseUuid subAgentId
        scopes := scopes
        expiresInSeconds := ← seconds expiresInSeconds } := by
  rw [DelegateRequest.deserialize, structFields_object (by simp)]
  simp [Json.asStr, uuid, strings, strings_map, asU64_int]

theorem deserialize_grant (agentId : String) (scopes : List String) (expiresInSeconds : Int)
    (constraints : Option (List (String × Json))) :
    PrincipalDelegateRequest.deserialize p (.object ([("agent_id", .string agentId),
        ("scopes", strings scopes), ("expires_in_seconds", int expiresInSeconds)] ++
          constraints.toList.map fun fields => ("constraints", .object fields))) = do
      return {
        agentId := ← p.parseUuid agentId
        scopes := scopes
        constraints := constraints.map fun fields => value (.object fields)
        expiresInSeconds := ← seconds expiresInSeconds } := by
  cases constraints with
  | none =>
      rw [PrincipalDelegateRequest.deserialize, structFields_object (by simp)]
      simp [Json.asStr, uuid, strings, strings_map, asU64_int]
  | some fields =>
      rw [PrincipalDelegateRequest.deserialize, structFields_object (by simp)]
      simp [Json.asStr, uuid, strings, strings_map, asU64_int]

theorem deserialize_resolution (approverId : String) (reason : Option String) :
    ApproveRequest.deserialize p
        (.object (("approver_id", .string approverId) :: ifGiven "reason" reason)) =
      do return ⟨← p.parseUuid approverId, given reason⟩ := by
  rw [ifGiven]
  cases given reason with
  | none =>
      rw [ApproveRequest.deserialize, structFields_object (by simp)]
      simp [Json.asStr, uuid]
  | some reason =>
      rw [ApproveRequest.deserialize, structFields_object (by simp)]
      simp [Json.asStr, uuid]

theorem deserialize_revocation :
    RevokeGrantRequest.deserialize (.object [("cascade", .bool true)]) = some ⟨true⟩ := by
  rw [RevokeGrantRequest.deserialize, structFields_object (by simp)]
  simp [orDefault, Json.asBool]

theorem deserialize_agent (name principalType : String) (ownerId : Option String) :
    CreateAgentRequest.deserialize p (.object ([("name", .string name),
        ("principal_type", .string principalType)] ++ ifGiven "owner_id" ownerId)) = do
      let principalType ← agentTypes.lookup principalType
      let ownerId ← (given ownerId).mapM p.parseUuid
      return ⟨name, principalType, none, none, ownerId⟩ := by
  rw [ifGiven]
  cases given ownerId with
  | none =>
      rw [CreateAgentRequest.deserialize, structFields_object (by simp)]
      simp [Json.asStr, variant]
  | some ownerId =>
      rw [CreateAgentRequest.deserialize, structFields_object (by simp)]
      simp [Json.asStr, uuid, variant]

theorem deserialize_principal (externalId idpProvider email displayName : String) :
    CreatePrincipalRequest.deserialize (.object [("external_id", .string externalId),
        ("idp_provider", .string idpProvider), ("email", .string email),
        ("display_name", .string displayName)]) =
      some ⟨externalId, idpProvider, email, displayName⟩ := by
  rw [CreatePrincipalRequest.deserialize, structFields_object (by simp)]
  simp [Json.asStr]

theorem deserialize_policy (name engine definition : String) :
    CreatePolicyRequest.deserialize (.object [("name", .string name), ("engine", .string engine),
        ("definition", .string definition)]) = some ⟨name, engine, definition⟩ := by
  rw [CreatePolicyRequest.deserialize, structFields_object (by simp)]
  simp [Json.asStr]

theorem deserialize_spend (amount : F64) (sessionId : Option String) :
    RecordSpendRequest.deserialize
        (.object (("amount", .number (.float amount)) :: ifGiven "session_id" sessionId)) =
      some ⟨amount, given sessionId⟩ := by
  rw [ifGiven]
  cases given sessionId with
  | none =>
      rw [RecordSpendRequest.deserialize, structFields_object (by simp)]
      simp [f64]
  | some sessionId =>
      rw [RecordSpendRequest.deserialize, structFields_object (by simp)]
      simp [f64, Json.asStr]

theorem deserialize_credential (principalId provider refreshToken : String)
    (scopes : List String) : StoreCredentialRequest.deserialize p dates (.object [
        ("principal_id", .string principalId), ("provider", .string provider),
        ("refresh_token", .string refreshToken), ("scopes", strings scopes)]) =
      do return ⟨← p.parseUuid principalId, provider, refreshToken, scopes, none⟩ := by
  rw [StoreCredentialRequest.deserialize, structFields_object (by simp)]
  simp [Json.asStr, uuid, strings, strings_map]

end

/-! ## Requests -/

section

variable {p : Platform} {dates : Dates} {auth : Option Uuid}
  {headers : List (String × List UInt8)}

/-- Where the router leads a call with an argument in its path, and what is read of the path. -/
theorem ClientCall.dispatched (call : ClientCall) {headers : List (String × List UInt8)}
    {endpoint : Endpoint} {text : String} (route : Route) (before after : List String)
    (name : String) (template : route.template =
      before.map (fun text => .fixed text.toList) ++
        .parameter name.toList :: after.map (fun text => .fixed text.toList))
    (hroute : route ∈ allRoutes) (h : IsPathText text)
    (path : String.join (before.map (· ++ "/")) ++ text ++ String.join (after.map ("/" ++ ·)) =
      (call.outgoing.sent headers).path)
    (hendpoint : route.router.endpoint (call.outgoing.sent headers).method = some endpoint) :
    pathString (call.outgoing.sent headers) = .ok text ∧
      ∀ agent, dispatch (call.outgoing.sent headers).toRequest agent =
        .handled endpoint agent := by
  have hslash : '/' ∉ text.toList := h.notMem (by decide) (by decide) (by decide)
  have hfill := path.symm.trans (route.fill_eq before after name template text).symm
  refine ⟨pathString_fill route hroute h ?_ hfill, fun agent => ?_⟩
  · rw [template, List.any_append, List.any_cons]
    simp [Segment.isFixed]
  · exact dispatch_fill hroute (fun _ _ _ => ⟨h.nonempty, hslash⟩) hfill hendpoint

/-- The server reads every request of the client as what the method is for, and reads nothing
exactly if an argument has no meaning. -/
theorem operationOf_outgoing (call : ClientCall)
    (plain : ∀ text, call.pathArgument = some text → IsPathText text) :
    operationOf p dates auth (call.outgoing.sent headers) = call.meaning p auth := by
  cases call with
  | health =>
      rw [operationOf_path ⟨"/health", .onGet .health⟩ (by decide) (by decide +kernel) rfl rfl]
      rfl
  | checkAccess request =>
      rw [operationOf_path ⟨"/v1/agent/check", .onPost .checkAccess⟩ (by decide)
        (by decide +kernel) rfl rfl, extract, toOption_bind, toOption_jsonBody _ rfl,
        deserialize_access]
      rfl
  | requestAccess request =>
      rw [operationOf_path ⟨"/v1/agent/request-access", .onPost .requestAccess⟩ (by decide)
        (by decide +kernel) rfl rfl, extract, toOption_bind, toOption_jsonBody _ rfl,
        deserialize_access]
      rfl
  | delegate parentGrantToken subAgentId scopes expiresInSeconds =>
      rw [operationOf_path ⟨"/v1/agent/delegate", .onPost .delegate⟩ (by decide)
        (by decide +kernel) rfl rfl, extract, toOption_bind, toOption_jsonBody _ rfl,
        deserialize_delegate, ClientCall.meaning]
      cases p.parseUuid subAgentId <;> cases seconds expiresInSeconds <;> rfl
  | getApprovalStatus requestId =>
      obtain ⟨hpath, hroute⟩ := ClientCall.dispatched (.getApprovalStatus requestId)
        ⟨"/v1/agent/approval-status/{id}", .onGet .approvalStatus⟩
        ["", "v1", "agent", "approval-status"] [] "{id}" rfl (by decide) (plain _ rfl)
        String.append_empty rfl
      rw [operationOf_handled (hroute auth), extract, toOption_bind, toOption_pathUuid hpath]
      rfl
  | delegatePermissions agentId scopes expiresInSeconds constraints =>
      rw [operationOf_path ⟨"/v1/principal/delegate", .onPost .principalDelegate⟩ (by decide)
        (by decide +kernel) rfl rfl, extract, toOption_bind, toOption_jsonBody _ rfl,
        deserialize_grant, ClientCall.meaning]
      cases p.parseUuid agentId <;> cases seconds expiresInSeconds <;> rfl
  | listPendingApprovals =>
      rw [operationOf_path ⟨"/v1/principal/approvals", .onGet .listPendingApprovals⟩ (by decide)
        (by decide +kernel) rfl rfl]
      rfl
  | approveRequest requestId approverId reason =>
      obtain ⟨hpath, hroute⟩ := ClientCall.dispatched (.approveRequest requestId approverId reason)
        ⟨"/v1/principal/approvals/{id}/approve", .onPost .approveRequest⟩
        ["", "v1", "principal", "approvals"] ["approve"] "{id}" rfl (by decide) (plain _ rfl) rfl
        rfl
      rw [operationOf_handled (hroute auth), extract, toOption_pathUuid_jsonBody _ _ hpath rfl,
        deserialize_resolution, ClientCall.meaning]
      cases p.parseUuid requestId <;> cases p.parseUuid approverId <;> rfl
  | denyRequest requestId approverId reason =>
      obtain ⟨hpath, hroute⟩ := ClientCall.dispatched (.denyRequest requestId approverId reason)
        ⟨"/v1/principal/approvals/{id}/deny", .onPost .denyRequest⟩
        ["", "v1", "principal", "approvals"] ["deny"] "{id}" rfl (by decide) (plain _ rfl) rfl rfl
      rw [operationOf_handled (hroute auth), extract, toOption_pathUuid_jsonBody _ _ hpath rfl,
        deserialize_resolution, ClientCall.meaning]
      cases p.parseUuid requestId <;> cases p.parseUuid approverId <;> rfl
  | revokeGrant grantId =>
      obtain ⟨hpath, hroute⟩ := ClientCall.dispatched (.revokeGrant grantId)
        ⟨"/v1/principal/grants/{id}/revoke", .onPost .revokeGrant⟩
        ["", "v1", "principal", "grants"] ["revoke"] "{id}" rfl (by decide) (plain _ rfl) rfl rfl
      rw [operationOf_handled (hroute auth), extract,
        toOption_pathUuid_jsonBody _ (fun id _ => .call (.revokeGrant id)) hpath rfl,
        deserialize_revocation]
      rfl
  | registerAgent name principalType ownerId =>
      rw [operationOf_path ⟨"/v1/admin/agents", .andGet (.onPost .createAgent) .listAgents⟩
        (by decide) (by decide +kernel) rfl rfl, extract, toOption_bind, toOption_jsonBody _ rfl,
        deserialize_agent, ClientCall.meaning]
      cases agentTypes.lookup principalType <;> cases (given ownerId).mapM p.parseUuid <;> rfl
  | registerPrincipal email displayName externalId idpProvider =>
      rw [operationOf_path ⟨"/v1/admin/principals", .onPost .createPrincipal⟩ (by decide)
        (by decide +kernel) rfl rfl, extract, toOption_bind, toOption_jsonBody _ rfl,
        deserialize_principal]
      rfl
  | createPolicy name definition engine =>
      rw [operationOf_path
        ⟨"/v1/admin/policies", .andGet (.onPost .createPolicy) .listPolicies⟩ (by decide)
        (by decide +kernel) rfl rfl, extract, toOption_bind, toOption_jsonBody _ rfl,
        deserialize_policy]
      rfl
  | getAuditTrail =>
      rw [operationOf_path ⟨"/v1/admin/audit", .onGet .listAudit⟩ (by decide) (by decide +kernel)
        rfl rfl]
      rfl
  | listSessions =>
      rw [operationOf_path ⟨"/v1/sessions", .onGet .listSessions⟩ (by decide) (by decide +kernel)
        rfl rfl]
      rfl
  | killAgent agentId =>
      obtain ⟨hpath, hroute⟩ := ClientCall.dispatched (.killAgent agentId)
        ⟨"/v1/admin/agents/{id}/kill", .onPost .killAgent⟩
        ["", "v1", "admin", "agents"] ["kill"] "{id}" rfl (by decide) (plain _ rfl) rfl rfl
      rw [operationOf_handled (hroute auth), extract, toOption_bind, toOption_pathUuid hpath]
      rfl
  | recordSpend agentId amount sessionId =>
      obtain ⟨hpath, hroute⟩ := ClientCall.dispatched (.recordSpend agentId amount sessionId)
        ⟨"/v1/admin/agents/{id}/spend", .onPost .recordSpend⟩
        ["", "v1", "admin", "agents"] ["spend"] "{id}" rfl (by decide) (plain _ rfl) rfl rfl
      rw [operationOf_handled (hroute auth), extract,
        toOption_pathUuid_jsonBody RecordSpendRequest.deserialize
          (fun id body => .call (.recordSpend id body.amount body.sessionId)) hpath rfl,
        deserialize_spend]
      rfl
  | revokeToken jti =>
      obtain ⟨hpath, hroute⟩ := ClientCall.dispatched (.revokeToken jti)
        ⟨"/v1/admin/tokens/{jti}/revoke", .onPost .revokeToken⟩
        ["", "v1", "admin", "tokens"] ["revoke"] "{jti}" rfl (by decide) (plain _ rfl) rfl rfl
      rw [operationOf_handled (hroute auth), extract, toOption_bind, hpath]
      rfl
  | storeCredential principalId provider refreshToken scopes =>
      rw [operationOf_path
        ⟨"/v1/vault/credentials", .andGet (.onPost .storeCredential) .listVaultCredentials⟩
        (by decide) (by decide +kernel) rfl rfl, extract, toOption_bind, toOption_jsonBody _ rfl,
        deserialize_credential, ClientCall.meaning]
      cases p.parseUuid principalId <;> rfl

end

theorem isPathText_uuid : IsPathText (⟨300⟩ : Uuid).toString := by
  have hplain : (⟨300⟩ : Uuid).toString.toList.all
      (fun c => c.isAlphanum || c == '-' || c == '_') = true := by decide +kernel
  refine ⟨by decide +kernel, fun c hc => ?_⟩
  simpa only [Bool.or_eq_true, beq_iff_eq, or_assoc] using List.all_eq_true.mp hplain c hc

theorem operationOf_outgoing_kill :
    let call : ClientCall := .killAgent (⟨300⟩ : Uuid).toString
    (∀ text, call.pathArgument = some text → IsPathText text) ∧
      operationOf delegationPlatform ⟨firstDayInstant, firstDayText⟩ none
        (call.outgoing.sent []) = some (.call (.killAgent ⟨300⟩)) := by
  intro call
  have plain : ∀ text, call.pathArgument = some text → IsPathText text := by
    intro text htext
    cases htext
    exact isPathText_uuid
  refine ⟨plain, (operationOf_outgoing call plain).trans ?_⟩
  rw [ClientCall.meaning, delegationPlatform.parseUuid_toString]
  rfl

end Sdk

end Patroclus
