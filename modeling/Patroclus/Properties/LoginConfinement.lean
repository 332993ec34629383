import Patroclus.Api.Federation
import Patroclus.Properties.PolicyPublication

/-!
# What a login does to others

The policy of a user's groups is called a session policy, but it is published like an
administrator's: it replaces the one policy by which everyone is judged, and a rule
cannot say to whose principal it applies. A login leaves the others alone if it publishes
no text, or one whose rules are those by which everyone is judged already.
-/

namespace Patroclus

open Foundation

/-- Contexts with other principals are evaluated alike before and after. -/
def LoginConfined (before after : AppState) (principalId : Uuid) : Prop :=
  ∀ (store : SessionStore) (now : Instant) (ctx : PolicyContext),
    ctx.principal.map (·.id) ≠ some principalId →
      (after.policyEngine.evaluate store now ctx).1 = (before.policyEngine.evaluate store now ctx).1

/-- The engines evaluate every context alike. -/
def YamlEngine.EvaluatesAs (engine engine' : YamlEngine) : Prop :=
  ∀ (store : SessionStore) (now : Instant) (ctx : PolicyContext),
    (engine.evaluate store now ctx).1 = (engine'.evaluate store now ctx).1

namespace IdpLogin

/-- The step of the tape at which the publication begins: finding a principal takes two
steps, and providing one takes six. -/
def publicationTick (login : IdpLogin) (s : Serving) : Nat :=
  if (s.emailRow login.userInfo.email).isSome then s.tick + 2 else s.tick + 6

/-- The text from which the engine is built after the publication of a text. A row that
cannot be read back reads as empty. -/
def loadedText (login : IdpLogin) (s : Serving) (text : String) : String :=
  if s.tape.fault (login.publicationTick s + 5) = none then text else ""

/-- The login publishes no text, or one whose rules are those of the running engine. An empty
text, as which a row reads that cannot be read back, has no rules. -/
def KeepsRules (p : Platform) (login : IdpLogin) (s : Serving) : Prop :=
  ∀ text, login.policyText = some text →
    if (login.loadedText s text).isEmpty then s.app.policyEngine.rules = []
    else p.parseYaml (login.loadedText s text) = .ok s.app.policyEngine.rules

end IdpLogin

section

variable {p : Platform} {s s₁ finish : Serving} {login : IdpLogin} {id : Uuid}

theorem LoginBound.policyEngine (h : LoginBound login s id s₁) :
    s₁.app.policyEngine = s.app.policyEngine := by
  cases h with
  | found lookup => rfl
  | provisioned lookup fresh email => rfl

theorem LoginBound.tape (h : LoginBound login s id s₁) : s₁.tape = s.tape := by
  cases h with
  | found lookup => rfl
  | provisioned lookup fresh email => rfl

theorem LoginBound.tick (h : LoginBound login s id s₁) : s₁.tick = login.publicationTick s := by
  rw [IdpLogin.publicationTick]
  cases h with
  | found lookup =>
      rw [lookup]
      rfl
  | provisioned lookup fresh email =>
      rw [lookup]
      rfl

/-- The engine after a successful publication. -/
theorem createPolicy_engine {name engine definition : String}
    (run : createPolicy p name engine definition s = (.ok (), finish)) :
    engineOf p (if s.tape.fault (s.tick + 5) = none then definition else "") =
      .ok finish.app.policyEngine := by
  have heffect := createPolicy_effect (p := p) name engine definition s
  rw [run] at heffect
  cases heffect with
  | swapped faults fresh id active text engine app =>
      rw [engine, app]

/-- A rule cannot tell one principal from another. -/
theorem LoginConfined.iff_evaluatesAs {before after : AppState} :
    LoginConfined before after id ↔ after.policyEngine.EvaluatesAs before.policyEngine := by
  constructor
  · intro h store now ctx
    exact h store now { ctx with principal := none } nofun
  · intro h store now ctx _
    exact h store now ctx

/-- A successful login is confined to its user exactly if it publishes no text, or the
engine that is then built evaluates everything as the running one does. -/
theorem loginConfined_iff_evaluatesAs {idp : IdpConfig} {net : IdpNetwork}
    {txn : Option PkceTransaction} {code : String} {response : IdpCallbackResponse}
    (run : idpCallback p idp net txn code s = (.ok response, finish))
    (authenticated : authenticateLogin p idp net txn code = .ok login) :
    LoginConfined s.app finish.app response.principalId ↔
      ∀ text, login.policyText = some text → ∀ built,
        engineOf p (login.loadedText s text) = .ok built →
          built.EvaluatesAs s.app.policyEngine := by
  obtain ⟨login', s₁, hlogin, hbound, hpublish⟩ := idpCallback_eq_ok run
  obtain rfl := Except.ok.inj (authenticated.symm.trans hlogin)
  rw [LoginConfined.iff_evaluatesAs]
  rw [publishLogin] at hpublish
  cases htext : login.policyText with
  | none =>
      rw [htext] at hpublish
      cases hpublish
      rw [hbound.policyEngine]
      exact iff_of_true (fun _ _ _ => rfl) nofun
  | some text =>
      rw [htext] at hpublish
      have hengine := createPolicy_engine hpublish
      rw [hbound.tape, hbound.tick] at hengine
      constructor
      · intro h text' htext' built hbuilt
        cases htext'
        obtain rfl := Except.ok.inj (hbuilt.symm.trans hengine)
        exact h
      · intro h
        exact h text rfl _ hengine

/-- The engine that is built from the rules of the running engine is the running engine. -/
theorem IdpLogin.KeepsRules.built_eq (h : login.KeepsRules p s) {text : String}
    (published : login.policyText = some text) {built : YamlEngine}
    (build : engineOf p (login.loadedText s text) = .ok built) : built = s.app.policyEngine := by
  have hrules := h text published
  rw [engineOf] at build
  split at build
  · split at build
    · rename_i hempty
      rw [if_pos hempty] at hrules
      cases build
      exact congrArg YamlEngine.mk hrules.symm
    · rename_i hnonempty
      rw [if_neg hnonempty] at hrules
      rw [hrules] at build
      exact (Except.ok.inj build).symm
  · cases build

/-- A successful login is confined to its user if it publishes no text (as without a mapped
group, by `buildPolicyFromGroups_eq_none`), or one with the rules of the running engine. -/
theorem loginConfined_of_keepsRules {idp : IdpConfig} {net : IdpNetwork}
    {txn : Option PkceTransaction} {code : String} {response : IdpCallbackResponse}
    (run : idpCallback p idp net txn code s = (.ok response, finish))
    (authenticated : authenticateLogin p idp net txn code = .ok login)
    (keeps : login.KeepsRules p s) : LoginConfined s.app finish.app response.principalId := by
  refine (loginConfined_iff_evaluatesAs run authenticated).mpr ?_
  intro text hpublished built hbuild
  rw [keeps.built_eq hpublished hbuild]
  exact fun _ _ _ => rfl

end

/-- A provider whose engineers may do everything. -/
def corporateIdp : IdpConfig :=
  ⟨true, [⟨"corp", "https://idp", "patroclus", "secret", [], "groups",
    [⟨"engineers", allowAll, ["read"]⟩]⟩]⟩

/-- The answers of that provider for a user of one group. -/
def corporateNetwork (group : String) : IdpNetwork where
  post _ _ := .ok (.object [("access_token", .string "token")])
  get _ _ := .ok (.object [("email", .string "alice@corp"),
    ("groups", .array [.string group]), ("sub", .string "1")])

def pending : PkceTransaction := ⟨"corp", "verifier", 0⟩

/-- The callback of a user of one group. -/
def loggingIn (group : String) (s : Serving) : Except Failure IdpCallbackResponse × Serving :=
  idpCallback publishingPlatform corporateIdp (corporateNetwork group) (some pending) "code" s

theorem loggingIn_ok {group : String} {s : Serving} (h : (loggingIn group s).1.isOk = true) :
    ∃ response finish, loggingIn group s = (.ok response, finish) := by
  rcases hrun : loggingIn group s with ⟨outcome, finish⟩
  rw [hrun] at h
  cases outcome with
  | ok response => exact ⟨response, finish, rfl⟩
  | error e => cases h

/-- A freshly started server. -/
def beforeEngineer : Serving := startedWorld.serving (.steady opening 300)

/-- The same server after an engineer has logged in. -/
def afterEngineer : Serving :=
  ⟨(loggingIn "engineers" beforeEngineer).2.app, [], .steady opening 400, 0⟩

/-- What the provider says about a user of one group. -/
def corporateLogin (group : String) : IdpLogin where
  provider := ⟨"corp", "https://idp", "patroclus", "secret", [], "groups",
    [⟨"engineers", allowAll, ["read"]⟩]⟩
  userInfo := ⟨"1", "alice@corp", none, [group], "https://idp",
    .object [("email", .string "alice@corp"), ("groups", .array [.string group]),
      ("sub", .string "1")]⟩

/-- An engineer who logs in once more publishes the policy that is in force, and a guest none. -/
theorem loginConfined_again :
    (∃ response finish, loggingIn "engineers" afterEngineer = (.ok response, finish) ∧
      (corporateLogin "engineers").policyText = some allowAll ∧
      LoginConfined afterEngineer.app finish.app response.principalId) ∧
    ∃ response finish, loggingIn "guests" afterEngineer = (.ok response, finish) ∧
      LoginConfined afterEngineer.app finish.app response.principalId := by
  have hengineer : authenticateLogin publishingPlatform corporateIdp (corporateNetwork "engineers")
      (some pending) "code" = .ok (corporateLogin "engineers") := rfl
  have hguest : authenticateLogin publishingPlatform corporateIdp (corporateNetwork "guests")
      (some pending) "code" = .ok (corporateLogin "guests") := rfl
  have htext : (corporateLogin "engineers").policyText = some allowAll := by decide
  have hnone : (corporateLogin "guests").policyText = none := by decide
  constructor
  · obtain ⟨response, finish, hrun⟩ : ∃ response finish, loggingIn "engineers" afterEngineer =
      (.ok response, finish) := loggingIn_ok (by decide +kernel)
    refine ⟨response, finish, hrun, htext, loginConfined_of_keepsRules hrun hengineer ?_⟩
    intro text hpublished
    obtain rfl := Option.some.inj (htext.symm.trans hpublished)
    decide +kernel
  · obtain ⟨response, finish, hrun⟩ : ∃ response finish, loggingIn "guests" afterEngineer =
      (.ok response, finish) := loggingIn_ok (by decide +kernel)
    refine ⟨response, finish, hrun, loginConfined_of_keepsRules hrun hguest ?_⟩
    intro text hpublished
    cases hnone.symm.trans hpublished

/-- Confinement as a promise about every login. -/
def LoginsConfined (p : Platform) (s : Serving) : Prop :=
  ∀ (idp : IdpConfig) (net : IdpNetwork) (txn : Option PkceTransaction) (code : String)
    (response : IdpCallbackResponse) (finish : Serving),
    idpCallback p idp net txn code s = (.ok response, finish) →
      LoginConfined s.app finish.app response.principalId

/-- A context of nobody's agent. -/
def strangerContext : PolicyContext where
  agent := ⟨⟨900⟩, "bot", .autonomous, none, none, none, .active, none, 0, 0⟩
  principal := none
  action := "delete"
  resource := "db"
  requestedScopes := []
  sessionId := none
  trajectory := []

/-- After an engineer has logged in, everyone may do everything. -/
theorem not_loginsConfined :
    ¬ LoginsConfined publishingPlatform beforeEngineer := by
  intro h
  obtain ⟨response, finish, hrun⟩ : ∃ response finish, loggingIn "engineers" beforeEngineer =
    (.ok response, finish) := loggingIn_ok (by decide)
  have hsame := h corporateIdp (corporateNetwork "engineers") (some pending) "code" response finish
    hrun .new 0 strangerContext nofun
  have hafter : ((loggingIn "engineers" beforeEngineer).2.app.policyEngine.evaluate .new 0
      strangerContext).1.decision = .allow := by decide
  have hbefore : (beforeEngineer.app.policyEngine.evaluate .new 0 strangerContext).1.decision =
      .deny := by decide
  rw [hrun] at hafter
  have hdecision := congrArg PolicyEvaluation.decision hsame
  rw [hafter, hbefore] at hdecision
  cases hdecision

end Patroclus
