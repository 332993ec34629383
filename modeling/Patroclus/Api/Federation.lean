import Patroclus.Api.Publication
import Patroclus.Idp

/-!
# The callback of a login

`idp_callback` finds the provider of a pending authorization, exchanges the code for
the claims of the user, looks the user's principal up by email or provisions it, and
publishes the policy that the user's groups are mapped to.
-/

namespace Patroclus

open Foundation

/-- An authenticated user, with the provider that has vouched for it. -/
structure IdpLogin where
  provider : IdpProvider
  userInfo : IdpUserInfo

structure IdpCallbackResponse where
  authenticated : Bool
  principalId : Uuid
  email : String
  groups : List String
  issuer : String
  mappedScopes : List String
  policyApplied : Bool

section

variable (p : Platform)

/-- What the request and the providers say, before the database is asked. `txn` is the
pending authorization that the `state` parameter was exchanged for. -/
def authenticateLogin (idp : IdpConfig) (net : IdpNetwork) (txn : Option PkceTransaction)
    (code : String) : Except PatroclusError IdpLogin := do
  if !idp.enabled || idp.providers.isEmpty then
    .error (.config "IdP federation not enabled")
  else
    match txn with
    | none => .error (.forbidden "invalid, expired or reused OAuth state parameter")
    | some txn =>
        match idp.providers.find? (·.name == txn.providerName) with
        | none => .error (.config ("IdP provider '" ++ txn.providerName ++ "' not configured"))
        | some provider => do
            let redirectUri := p.config.tokenIssuer ++ "/v1/idp/callback"
            let accessToken ← IdpFederation.exchangeOidcToken net provider code redirectUri
              txn.codeVerifier
            let userInfo ← IdpFederation.fetchUserinfo net provider accessToken
            return ⟨provider, userInfo⟩

/-- The principal of a user: the first with this email, or else a new one. -/
def loginPrincipal (login : IdpLogin) : Handler Uuid := do
  match ← Database.getPrincipalByEmail p login.userInfo.email with
  | some principal => return principal.id
  | none =>
      let principal ← Database.createPrincipal p {
        externalId := login.userInfo.subject
        idpProvider := login.provider.name
        email := login.userInfo.email
        displayName := login.userInfo.name.getD login.userInfo.email }
      return principal.id

/-- The policy of a user's groups, with the scopes that go with it. -/
def IdpLogin.policy (login : IdpLogin) : Option (String × List String) :=
  IdpFederation.buildPolicyFromGroups login.userInfo login.provider.groupPolicyMappings

/-- The text that a login publishes; an empty one is not published. -/
def IdpLogin.policyText (login : IdpLogin) : Option String :=
  (login.policy.map (·.1)).filter fun text => !text.isEmpty

def publishLogin (login : IdpLogin) (principalId : Uuid) : Handler Unit :=
  match login.policyText with
  | some text => createPolicy p ("idp-" ++ principalId.toString) "yaml" text
  | none => pure ()

def idpCallback (idp : IdpConfig) (net : IdpNetwork) (txn : Option PkceTransaction)
    (code : String) : Handler IdpCallbackResponse := do
  let login ← Action.lift ((authenticateLogin p idp net txn code).mapError .error)
  let principalId ← loginPrincipal p login
  publishLogin p login principalId
  return {
    authenticated := true
    principalId := principalId
    email := login.userInfo.email
    groups := login.userInfo.groups
    issuer := login.userInfo.issuer
    mappedScopes := (login.policy.map (·.2)).getD []
    policyApplied := login.policy.isSome }

/-! ## The principal of a login -/

/-- The row that a lookup by email finds; a lookup that fails finds none. -/
def Serving.emailRow (s : Serving) (email : String) : Option PrincipalRow :=
  if s.tape.fault s.tick = none then s.app.db.principals.find? (·.email == email) else none

variable {p} {s finish : Serving}

theorem getPrincipalByEmail_found {email : String} {row : PrincipalRow}
    (h : s.emailRow email = some row) : Database.getPrincipalByEmail p email s =
      (.ok (some (Database.principalOfRow p row (s.tape.now (s.tick + 1)))), s.next.next) := by
  rw [Serving.emailRow] at h
  split at h
  · rename_i hfault
    have hrow : Database.queryRow (fun db => db.principals.find? (·.email == email)) s =
        (.ok row, s.next) := Database.queryRow_eq_ok.mpr ⟨hfault, h, rfl⟩
    have hread : Database.principalByEmail p email s =
        (.ok (Database.principalOfRow p row (s.tape.now (s.tick + 1))), s.next.next) := by
      rw [Database.principalByEmail, Action.bind_run_ok hrow]
      rfl
    rw [Database.getPrincipalByEmail, Action.bind_run_ok (Action.attempt_run _ _), hread]
    rfl
  · cases h

theorem getPrincipalByEmail_missed {email : String} (h : s.emailRow email = none) :
    Database.getPrincipalByEmail p email s = (.ok none, s.next) := by
  have hrow : ∃ e, Database.queryRow (fun db => db.principals.find? (·.email == email)) s =
      (.error e, s.next) := by
    rw [Serving.emailRow] at h
    cases hfault : s.tape.fault s.tick with
    | some message => exact ⟨_, Action.bind_run_error (sql_fault hfault)⟩
    | none =>
        rw [if_pos hfault] at h
        refine ⟨.error Database.noRows, ?_⟩
        rw [Database.queryRow, Action.bind_run_ok (query_run hfault), h]
        rfl
  obtain ⟨e, hrow⟩ := hrow
  have hread : Database.principalByEmail p email s = (.error e, s.next) :=
    Action.bind_run_error hrow
  rw [Database.getPrincipalByEmail, Action.bind_run_ok (Action.attempt_run _ _), hread]
  rfl

theorem createPrincipal_ok {req : CreatePrincipalRequest} {principal : Principal}
    (run : Database.createPrincipal p req s = (.ok principal, finish)) :
    s.app.db.principals.any (·.id == s.tape.uuid s.tick) = false ∧
      principal.id = s.tape.uuid s.tick ∧ ∃ row : PrincipalRow, row.id = s.tape.uuid s.tick ∧
        row.email = req.email ∧ finish = s.next.next.next.next.next.withDb { s.app.db with
          principals := s.app.db.principals ++ [row] } := by
  obtain ⟨id, s₁, hid, run⟩ := Action.bind_ok_iff.mp run
  cases hid
  obtain ⟨now, s₂, hnow, run⟩ := Action.bind_ok_iff.mp run
  cases hnow
  obtain ⟨_, s₃, hinsert, run⟩ := Action.bind_ok_iff.mp run
  obtain ⟨-, db, hdb, rfl⟩ := sql_eq_ok.mp hinsert
  obtain ⟨hfresh, rfl⟩ := Db.insertPrincipal_eq_ok.mp hdb
  obtain ⟨-, row, hrow, rfl, rfl⟩ := Database.getPrincipal_eq_ok.mp run
  have hid := List.find?_some hrow
  exact ⟨hfresh, beq_iff_eq.mp hid, _, rfl, rfl, rfl⟩

/-- Whether a login finds its principal or provisions it. -/
inductive LoginBound (login : IdpLogin) (s : Serving) : Uuid → Serving → Prop where
  | found {row : PrincipalRow} (lookup : s.emailRow login.userInfo.email = some row) :
      LoginBound login s row.id s.next.next
  | provisioned {row : PrincipalRow} (lookup : s.emailRow login.userInfo.email = none)
      (fresh : s.app.db.principals.any (·.id == row.id) = false)
      (email : row.email = login.userInfo.email) :
      LoginBound login s row.id (s.next.next.next.next.next.next.withDb { s.app.db with
        principals := s.app.db.principals ++ [row] })

theorem loginPrincipal_bound {login : IdpLogin} {id : Uuid}
    (run : loginPrincipal p login s = (.ok id, finish)) : LoginBound login s id finish := by
  cases hlookup : s.emailRow login.userInfo.email with
  | some row =>
      rw [loginPrincipal, Action.bind_run_ok (getPrincipalByEmail_found hlookup)] at run
      cases run
      exact .found hlookup
  | none =>
      rw [loginPrincipal, Action.bind_run_ok (getPrincipalByEmail_missed hlookup)] at run
      obtain ⟨principal, s₁, hcreate, run⟩ := Action.bind_ok_iff.mp run
      cases run
      obtain ⟨hfresh, hid, row, hrow, hemail, rfl⟩ := createPrincipal_ok hcreate
      rw [hid, ← hrow]
      rw [← hrow] at hfresh
      exact .provisioned hlookup hfresh hemail

/-- The parts of a successful callback. -/
theorem idpCallback_eq_ok {idp : IdpConfig} {net : IdpNetwork} {txn : Option PkceTransaction}
    {code : String} {response : IdpCallbackResponse}
    (run : idpCallback p idp net txn code s = (.ok response, finish)) :
    ∃ login s₁, authenticateLogin p idp net txn code = .ok login ∧
      LoginBound login s response.principalId s₁ ∧
      publishLogin p login response.principalId s₁ = (.ok (), finish) := by
  obtain ⟨login, s₀, hlogin, run⟩ := Action.bind_ok_iff.mp run
  cases hauth : authenticateLogin p idp net txn code with
  | error e =>
      rw [hauth] at hlogin
      cases hlogin
  | ok authenticated =>
      rw [hauth] at hlogin
      cases hlogin
      obtain ⟨id, s₁, hbound, run⟩ := Action.bind_ok_iff.mp run
      obtain ⟨_, s₂, hpublish, run⟩ := Action.bind_ok_iff.mp run
      cases run
      exact ⟨_, s₁, rfl, loginPrincipal_bound hbound, hpublish⟩

end

end Patroclus
