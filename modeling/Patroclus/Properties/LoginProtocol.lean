import Patroclus.Api.Login
import Patroclus.Foundation.Outcome

/-!
# Logins answer their own authorization

Anybody may call the callback, with any state and any code. Still, a callback that logs
a user in presents a state that this process has authorized less than ten minutes ago and
that nobody has presented since, and the code that it redeems is one that the provider has
bound to the challenge of that very authorization. So a code that was obtained in one login
cannot be injected into another.
-/

namespace Patroclus

open Foundation

/-- The record says nothing about a state. -/
def LoginRecord.Spares (state : String) : LoginRecord → Prop
  | authorized a => a.state ≠ state
  | presented other _ => other ≠ state
  | restarted => False

/-- The last that the records say about a state is that it was authorized. -/
def Outstanding (logins : List LoginRecord) (a : Authorization) : Prop :=
  ∃ before after, logins = before ++ .authorized a :: after ∧ ∀ r ∈ after, r.Spares a.state

/-- A token endpoint that redeems a code only for the verifier of the challenge to which the
code is bound. -/
def IdpNetwork.EnforcesPkce (p : Platform) (net : IdpNetwork) (issuer : String)
    (bound : String → Option String) : Prop :=
  ∀ form data code verifier, net.post (issuer ++ "/token") form = .ok data →
    form.lookup "code" = some code → form.lookup "code_verifier" = some verifier →
      bound code = some (pkceS256Challenge p verifier)

section

variable {p : Platform} {idp : IdpConfig} {isAlphanumeric : Char → Bool} {site : Site}
  {logins : List LoginRecord} {a : Authorization} {state code : String} {net : IdpNetwork}

/-! ## What is outstanding -/

theorem Outstanding.self (logins : List LoginRecord) (a : Authorization) :
    Outstanding (logins ++ [.authorized a]) a :=
  ⟨logins, [], rfl, nofun⟩

theorem Outstanding.append {r : LoginRecord} (h : Outstanding logins a)
    (spares : r.Spares a.state) :
    Outstanding (logins ++ [r]) a := by
  obtain ⟨before, after, rfl, hafter⟩ := h
  refine ⟨before, after ++ [r], by simp, ?_⟩
  intro other hother
  obtain hold | hnew := List.mem_append.mp hother
  · exact hafter other hold
  · rw [List.mem_singleton.mp hnew]
    exact spares

theorem PkceStore.insert_eq_some {store : PkceStore} {key providerName codeVerifier : String}
    {now : Instant} {txn : PkceTransaction}
    (h : store.insert key providerName codeVerifier now state = some txn) :
    state = key ∧ txn = ⟨providerName, codeVerifier, now⟩ ∨
      state ≠ key ∧ store state = some txn := by
  rw [PkceStore.insert] at h
  obtain rfl | hne := eq_or_ne state key
  · rw [Function.update_self] at h
    exact .inl ⟨rfl, (Option.some.inj h).symm⟩
  · rw [Function.update_of_ne hne] at h
    exact .inr ⟨hne, (Option.filter_eq_some_iff.mp h).1⟩

theorem PkceStore.consume_eq_some {store : PkceStore} {key : String} (now : Instant)
    {txn : PkceTransaction} (h : (store.consume key now).2 state = some txn) :
    state ≠ key ∧ store state = some txn := by
  change Function.update store key none state = some txn at h
  obtain rfl | hne := eq_or_ne state key
  · rw [Function.update_self] at h
    cases h
  · rw [Function.update_of_ne hne] at h
    exact ⟨hne, h⟩

/-- Everything in the store of pending authorizations is outstanding. -/
def Site.Recorded (site : Site) : Prop :=
  ∀ state txn, site.pkceStore state = some txn → Outstanding site.logins ⟨state, txn⟩

theorem Site.Recorded.insert (h : site.Recorded) (a : Authorization) (world : World) :
    Site.Recorded ⟨world, site.pkceStore.insert a.state a.txn.providerName a.txn.codeVerifier
      a.txn.createdAt, site.logins ++ [.authorized a]⟩ := by
  intro state txn hstored
  obtain ⟨rfl, rfl⟩ | ⟨hne, hold⟩ := PkceStore.insert_eq_some hstored
  · exact .self site.logins a
  · exact (h state txn hold).append fun heq => hne heq.symm

theorem Site.Recorded.consume (h : site.Recorded) (state code : String) (now : Instant)
    (world : World) : Site.Recorded ⟨world, (site.pkceStore.consume state now).2,
      site.logins ++ [.presented state code]⟩ := by
  intro other txn hstored
  obtain ⟨hne, hold⟩ := PkceStore.consume_eq_some now hstored
  exact (h other txn hold).append fun heq => hne heq.symm

theorem Site.Recorded.step (h : site.Recorded) (input : SiteInput) :
    (site.step p idp isAlphanumeric input).Recorded := by
  rw [Site.step]
  cases input.event with
  | server event =>
      cases event with
      | restart => exact nofun
      | call call => exact h
  | authorize providerName =>
      dsimp only
      split
      · rw [idpAuthorize]
        cases idp.providers.find? (·.name == providerName) with
        | none => exact h
        | some provider => exact h.insert (newAuthorization provider input.tape) _
      · exact h
  | callback state code net =>
      dsimp only
      split
      · split
        · exact h.consume state code _ _
        · exact h
      · exact h

theorem Site.recorded_run (inputs : List SiteInput) :
    (initialSite.run p idp isAlphanumeric inputs).Recorded :=
  List.foldlRecOn inputs (Site.step p idp isAlphanumeric) (motive := Site.Recorded) nofun
    fun _ h input _ => h.step input

/-! ## What a login rests on -/

theorem authenticateLogin_ok {txn : Option PkceTransaction} {login : IdpLogin}
    (h : authenticateLogin p idp net txn code = .ok login) :
    ∃ pending accessToken, idp.serves = true ∧ txn = some pending ∧
      idp.providers.find? (·.name == pending.providerName) = some login.provider ∧
      IdpFederation.exchangeOidcToken net login.provider code (callbackUri p)
        pending.codeVerifier = .ok accessToken ∧
      IdpFederation.fetchUserinfo net login.provider accessToken = .ok login.userInfo := by
  unfold authenticateLogin at h
  split at h
  · cases h
  · rename_i hserves
    have hserves : idp.serves = true := by simpa [IdpConfig.serves] using hserves
    cases txn with
    | none => cases h
    | some pending =>
        dsimp only at h
        split at h
        · cases h
        · rename_i provider hprovider
          obtain ⟨accessToken, hexchange, h⟩ := Outcome.bind_eq_ok.mp h
          obtain ⟨userInfo, huser, h⟩ := Outcome.bind_eq_ok.mp h
          cases h
          exact ⟨pending, accessToken, hserves, rfl, hprovider, hexchange, huser⟩

theorem exchangeOidcToken_bound {provider : IdpProvider} {redirectUri verifier accessToken : String}
    {bound : String → Option String} (enforces : net.EnforcesPkce p provider.issuer bound)
    (h : IdpFederation.exchangeOidcToken net provider code redirectUri verifier =
      .ok accessToken) : bound code = some (pkceS256Challenge p verifier) := by
  obtain ⟨data, hpost, -⟩ := Outcome.bind_eq_ok.mp h
  exact enforces _ data code verifier hpost rfl rfl

theorem fetchUserinfo_issuer {provider : IdpProvider} {accessToken : String}
    {userInfo : IdpUserInfo}
    (h : IdpFederation.fetchUserinfo net provider accessToken = .ok userInfo) :
    userInfo.issuer = provider.issuer := by
  obtain ⟨claims, -, h⟩ := Outcome.bind_eq_ok.mp h
  cases h
  rfl

/-- What a callback that logs a user in has found. -/
theorem idpCallback_authenticated {txn : Option PkceTransaction} {response : IdpCallbackResponse}
    {s finish : Serving} (run : idpCallback p idp net txn code s = (.ok response, finish)) :
    ∃ login, authenticateLogin p idp net txn code = .ok login ∧
      response.issuer = login.userInfo.issuer ∧ response.email = login.userInfo.email := by
  obtain ⟨login, s₀, hlogin, run⟩ := Action.bind_ok_iff.mp run
  cases hauth : authenticateLogin p idp net txn code with
  | error e =>
      rw [hauth] at hlogin
      cases hlogin
  | ok authenticated =>
      rw [hauth] at hlogin
      cases hlogin
      obtain ⟨id, s₁, -, run⟩ := Action.bind_ok_iff.mp run
      obtain ⟨_, s₂, -, run⟩ := Action.bind_ok_iff.mp run
      cases run
      exact ⟨_, rfl, rfl, rfl⟩

theorem Site.answer_login {input : SiteInput} {response : IdpCallbackResponse}
    (event : input.event = .callback state code net)
    (h : site.answer p idp isAlphanumeric input = .ok (.login response)) :
    site.world.up = true ∧ ∃ finish, site.callback p idp state code net input.tape =
      (.ok response, finish) := by
  rw [answer, event] at h
  dsimp only at h
  split at h
  · rename_i hup
    refine ⟨hup, _, Prod.ext ?_ rfl⟩
    cases hrun : (site.callback p idp state code net input.tape).1 with
    | error e =>
        rw [hrun] at h
        cases h
    | ok response' =>
        rw [hrun] at h
        cases h
        rfl
  · cases h

/-! ## The authorization of a login -/

/-- The authorization that a login completes: the latest of its state, still outstanding and
not expired, at the provider that has vouched for the user. -/
structure Completes (p : Platform) (idp : IdpConfig) (site : Site) (input : SiteInput)
    (state code : String) (net : IdpNetwork) (response : IdpCallbackResponse) (a : Authorization)
    (provider : IdpProvider) : Prop where
  serves : idp.serves = true
  outstanding : Outstanding site.logins a
  state : a.state = state
  age : input.tape.now 0 - a.txn.createdAt < pkceStateTtlSeconds * 1000000000
  configured : idp.providers.find? (·.name == a.txn.providerName) = some provider
  issuer : response.issuer = provider.issuer
  bound {bound : String → Option String} : net.EnforcesPkce p provider.issuer bound →
    bound code = some (pkceS256Challenge p a.txn.codeVerifier)

theorem Site.Recorded.completes (h : site.Recorded) {input : SiteInput}
    {response : IdpCallbackResponse} (event : input.event = .callback state code net)
    (answered : site.answer p idp isAlphanumeric input = .ok (.login response)) :
    ∃ a provider, Completes p idp site input state code net response a provider := by
  obtain ⟨-, finish, hrun⟩ := answer_login event answered
  obtain ⟨login, hauth, hissuer, -⟩ := idpCallback_authenticated hrun
  obtain ⟨txn, accessToken, hserves, hpresented, hprovider, hexchange, huser⟩ :=
    authenticateLogin_ok hauth
  obtain ⟨hstored, hlive⟩ := Option.filter_eq_some_iff.mp hpresented
  exact ⟨⟨state, txn⟩, login.provider, {
    serves := hserves
    outstanding := h state txn hstored
    state := rfl
    age := of_decide_eq_true hlive
    configured := hprovider
    issuer := hissuer.trans (fetchUserinfo_issuer huser)
    bound := fun enforces => exchangeOidcToken_bound enforces hexchange }⟩

/-! ## One login for a code -/

theorem Site.logins_step (site : Site) (input : SiteInput) :
    site.logins <+: (site.step p idp isAlphanumeric input).logins := by
  rw [Site.step]
  cases input.event with
  | server event =>
      cases event with
      | restart => exact List.prefix_append _ _
      | call call => exact List.prefix_rfl
  | authorize providerName =>
      dsimp only
      split
      · rw [idpAuthorize]
        cases idp.providers.find? (·.name == providerName) with
        | none => exact List.prefix_rfl
        | some provider => exact List.prefix_append _ _
      · exact List.prefix_rfl
  | callback state code net =>
      dsimp only
      split
      · split
        · exact List.prefix_append _ _
        · exact List.prefix_rfl
      · exact List.prefix_rfl

theorem Site.logins_run (p : Platform) (idp : IdpConfig) (isAlphanumeric : Char → Bool)
    (site : Site) (inputs : List SiteInput) :
    site.logins <+: (site.run p idp isAlphanumeric inputs).logins := by
  induction inputs generalizing site with
  | nil => exact List.prefix_rfl
  | cons input inputs ih => exact (site.logins_step input).trans (ih _)

theorem Site.logins_step_login {input : SiteInput} {response : IdpCallbackResponse}
    (event : input.event = .callback state code net) (serves : idp.serves = true)
    (answered : site.answer p idp isAlphanumeric input = .ok (.login response)) :
    (site.step p idp isAlphanumeric input).logins = site.logins ++ [.presented state code] := by
  obtain ⟨hup, -⟩ := answer_login event answered
  simp only [Site.step, event, hup, serves, if_true]

/-- The verifiers that the site has drawn. -/
def LoginRecord.verifier : LoginRecord → Option String
  | authorized a => some a.txn.codeVerifier
  | _ => none

def Site.verifiers (site : Site) : List String := site.logins.filterMap LoginRecord.verifier

/-- Records that draw the same verifier are one record. -/
theorem records_eq {before after before' after' : List LoginRecord} {r r' : LoginRecord}
    {verifier : String} (h : before ++ r :: after = before' ++ r' :: after')
    (distinct : ((before ++ r :: after).filterMap LoginRecord.verifier).Nodup)
    (hr : r.verifier = some verifier) (hr' : r'.verifier = some verifier) :
    r = r' ∧ after = after' := by
  induction before generalizing before' with
  | nil =>
      cases before' with
      | nil =>
          obtain ⟨rfl, rfl⟩ := List.cons.inj h
          exact ⟨rfl, rfl⟩
      | cons s before' =>
          obtain ⟨rfl, rfl⟩ := List.cons.inj h
          simp [List.filterMap_append, hr, hr'] at distinct
  | cons s before ih =>
      cases before' with
      | nil =>
          obtain ⟨rfl, rfl⟩ := List.cons.inj h
          simp [List.filterMap_append, hr, hr'] at distinct
      | cons s' before' =>
          obtain ⟨rfl, hrest⟩ := List.cons.inj h
          refine ih hrest ?_
          exact distinct.sublist ((List.sublist_cons_self s _).filterMap _)

end

/-! ## Two visitors -/

/-- A provider that has bound its codes to challenges, and serves the claims of one user. -/
def bindingNetwork (bound : String → Option String) (claims : Json) : IdpNetwork where
  post _ form :=
    match form.lookup "code", form.lookup "code_verifier" with
    | some code, some verifier =>
        if bound code = some (pkceS256Challenge .unsigned verifier) then
          .ok (.object [("access_token", .string "token")])
        else .error (.config "invalid_grant")
    | _, _ => .error (.config "invalid_request")
  get _ _ := .ok claims

theorem bindingNetwork_enforces (issuer : String) (bound : String → Option String) (claims : Json) :
    (bindingNetwork bound claims).EnforcesPkce .unsigned issuer bound := by
  intro form data code verifier hpost hcode hverifier
  simp only [bindingNetwork, hcode, hverifier] at hpost
  split at hpost
  · assumption
  · cases hpost

/-- The codes of two logins, bound to the challenges of the verifiers that they draw. -/
def visitorCodes (code : String) : Option String :=
  if code = "first" then some (pkceS256Challenge .unsigned (generateCodeVerifier [1]))
  else if code = "second" then some (pkceS256Challenge .unsigned (generateCodeVerifier [2]))
  else none

def visitorIdp : IdpConfig :=
  ⟨true, [⟨"corp", "https://idp", "patroclus", "secret", [], "groups", []⟩]⟩

def visitorNetwork : IdpNetwork :=
  bindingNetwork visitorCodes (.object [("email", .string "alice@corp"), ("sub", .string "1")])

/-- An event whose random bytes begin with a given one. -/
def SiteInput.drawing (byte : UInt8) (firstId : Nat) (event : SiteEvent) : SiteInput :=
  ⟨event, 0, { Tape.steady opening firstId with random := fun _ => [byte] }⟩

/-- A site that has been started and has answered two authorizations. -/
def visitorInputs : List SiteInput := [
  .drawing 0 100 (.server .restart),
  .drawing 1 200 (.authorize "corp"),
  .drawing 2 210 (.authorize "corp")]

def visitorLogin (byte : UInt8) (firstId : Nat) (code : String) : SiteInput :=
  .drawing byte firstId (.callback (generateState [byte]) code visitorNetwork)

/-- The response of an answer that logs a user in. -/
def SiteReply.login? : Except Failure SiteReply → Option IdpCallbackResponse
  | .ok (.login response) => some response
  | _ => none

theorem SiteReply.login?_eq_some {answer : Except Failure SiteReply}
    {response : IdpCallbackResponse} (h : SiteReply.login? answer = some response) :
    answer = .ok (.login response) := by
  unfold SiteReply.login? at h
  split at h
  · rw [Option.some.inj h]
  · cases h

/-! ## The results -/

/-- In every run, a callback that logs a user in completes an authorization. -/
theorem site_login_completes {p : Platform} {idp : IdpConfig} {isAlphanumeric : Char → Bool}
    {inputs : List SiteInput} {input : SiteInput} {state code : String} {net : IdpNetwork}
    {response : IdpCallbackResponse} (event : input.event = .callback state code net)
    (answered : (initialSite.run p idp isAlphanumeric inputs).answer p idp isAlphanumeric input =
      .ok (.login response)) :
    ∃ a provider, Completes p idp (initialSite.run p idp isAlphanumeric inputs) input state code
      net response a provider :=
  (Site.recorded_run inputs).completes event answered

theorem site_login_completes_visitor : ∃ response a provider,
    Completes .unsigned visitorIdp (initialSite.run .unsigned visitorIdp Char.isAlphanum
      visitorInputs) (visitorLogin 2 300 "second") (generateState [2]) "second" visitorNetwork
      response a provider := by
  obtain ⟨response, hresponse⟩ := Option.isSome_iff_exists.mp (by decide :
    (SiteReply.login? ((initialSite.run .unsigned visitorIdp Char.isAlphanum visitorInputs).answer
      .unsigned visitorIdp Char.isAlphanum (visitorLogin 2 300 "second"))).isSome = true)
  exact ⟨response, site_login_completes rfl (SiteReply.login?_eq_some hresponse)⟩

/-- Two logins at one provider redeem different codes, if the provider enforces the proof key
and no verifier has been drawn twice. -/
theorem code_logs_in_once {p : Platform} {idp : IdpConfig} {isAlphanumeric : Char → Bool}
    {earlier between : List SiteInput} {first second : SiteInput}
    {state₁ state₂ code₁ code₂ : String} {net₁ net₂ : IdpNetwork}
    {response₁ response₂ : IdpCallbackResponse} {bound : String → String → Option String}
    (hash : Function.Injective p.sha256)
    (event₁ : first.event = .callback state₁ code₁ net₁)
    (event₂ : second.event = .callback state₂ code₂ net₂)
    (answered₁ : (initialSite.run p idp isAlphanumeric earlier).answer p idp isAlphanumeric first =
      .ok (.login response₁))
    (answered₂ : (initialSite.run p idp isAlphanumeric (earlier ++ first :: between)).answer p idp
      isAlphanumeric second = .ok (.login response₂))
    (distinct :
      (initialSite.run p idp isAlphanumeric (earlier ++ first :: between)).verifiers.Nodup)
    (enforces₁ : ∀ issuer, net₁.EnforcesPkce p issuer (bound issuer))
    (enforces₂ : ∀ issuer, net₂.EnforcesPkce p issuer (bound issuer))
    (issuer : response₁.issuer = response₂.issuer) : code₁ ≠ code₂ := by
  rintro rfl
  obtain ⟨a₁, provider₁, h₁⟩ := (Site.recorded_run earlier).completes event₁ answered₁
  obtain ⟨a₂, provider₂, h₂⟩ := (Site.recorded_run _).completes event₂ answered₂
  -- Both authorizations have drawn the verifier that the code is bound to.
  have hbound₁ := h₁.bound (enforces₁ _)
  have hbound₂ := h₂.bound (enforces₂ _)
  rw [← h₁.issuer, issuer, h₂.issuer, hbound₂] at hbound₁
  have hverifier : a₂.txn.codeVerifier = a₁.txn.codeVerifier :=
    pkceS256Challenge_injective hash (Option.some.inj hbound₁)
  -- The first login has presented the state of its authorization since.
  have hrun : initialSite.run p idp isAlphanumeric (earlier ++ first :: between) =
      ((initialSite.run p idp isAlphanumeric earlier).step p idp isAlphanumeric first).run p idp
        isAlphanumeric between := List.foldl_append
  obtain ⟨before₁, after₁, hlogins₁, -⟩ := h₁.outstanding
  obtain ⟨before₂, after₂, hlogins₂, hspares⟩ := h₂.outstanding
  obtain ⟨since, hsince⟩ := Site.logins_run p idp isAlphanumeric
    ((initialSite.run p idp isAlphanumeric earlier).step p idp isAlphanumeric first) between
  rw [← hrun, Site.logins_step_login event₁ h₁.serves answered₁, hlogins₁] at hsince
  have hsame : before₁ ++ .authorized a₁ :: (after₁ ++ [.presented state₁ code₁] ++ since) =
      before₂ ++ .authorized a₂ :: after₂ := by
    rw [← hlogins₂, ← hsince]
    simp
  rw [Site.verifiers, hlogins₂, ← hsame] at distinct
  obtain ⟨heq, rfl⟩ := records_eq hsame distinct rfl (congrArg some hverifier)
  obtain rfl := LoginRecord.authorized.inj heq
  exact hspares (.presented state₁ code₁) (by simp) h₁.state.symm

theorem code_logs_in_once_visitors : ∃ response₁ response₂,
    (initialSite.run .unsigned visitorIdp Char.isAlphanum visitorInputs).answer .unsigned visitorIdp
      Char.isAlphanum (visitorLogin 1 300 "first") = .ok (.login response₁) ∧
    (initialSite.run .unsigned visitorIdp Char.isAlphanum
      (visitorInputs ++ visitorLogin 1 300 "first" :: [])).answer .unsigned visitorIdp
      Char.isAlphanum (visitorLogin 2 400 "second") = .ok (.login response₂) ∧
    "first" ≠ "second" := by
  obtain ⟨response₁, hresponse₁, hissuer₁⟩ := Option.map_eq_some_iff.mp (by decide :
    (SiteReply.login? ((initialSite.run .unsigned visitorIdp Char.isAlphanum visitorInputs).answer
      .unsigned visitorIdp Char.isAlphanum (visitorLogin 1 300 "first"))).map (·.issuer) =
        some "https://idp")
  obtain ⟨response₂, hresponse₂, hissuer₂⟩ := Option.map_eq_some_iff.mp (by decide :
    (SiteReply.login? ((initialSite.run .unsigned visitorIdp Char.isAlphanum
      (visitorInputs ++ visitorLogin 1 300 "first" :: [])).answer .unsigned visitorIdp
      Char.isAlphanum (visitorLogin 2 400 "second"))).map (·.issuer) = some "https://idp")
  refine ⟨response₁, response₂, SiteReply.login?_eq_some hresponse₁,
    SiteReply.login?_eq_some hresponse₂, ?_⟩
  exact code_logs_in_once (fun _ _ h => h) rfl rfl
    (SiteReply.login?_eq_some hresponse₁) (SiteReply.login?_eq_some hresponse₂) (by decide)
    (fun issuer => bindingNetwork_enforces issuer visitorCodes _)
    (fun issuer => bindingNetwork_enforces issuer visitorCodes _) (hissuer₁.trans hissuer₂.symm)

end Patroclus
