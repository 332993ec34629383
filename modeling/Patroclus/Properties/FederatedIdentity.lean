import Patroclus.Api.Federation
import Patroclus.Foundation.Binding

/-!
# Who a login is bound to

A provider names its users by the `sub` claim, and the row of a principal keeps the
provider and that claim. But the row of a login is looked up by email alone, and a
missing email reads as the empty one. So it is the email that decides who a login is
bound to, unless the lookup fails, which is taken for a user that is not there yet.
-/

namespace Patroclus

open Foundation

/-- A callback, with the answers of the providers and the tape that it meets. -/
structure Callback where
  net : IdpNetwork
  txn : Option PkceTransaction
  code : String
  tape : Tape

namespace Callback

variable (p : Platform) (idp : IdpConfig)

def serving (app : AppState) (callback : Callback) : Serving := ⟨app, [], callback.tape, 0⟩

def serve (app : AppState) (callback : Callback) : Except Failure IdpCallbackResponse × Serving :=
  idpCallback p idp callback.net callback.txn callback.code (callback.serving app)

def step (app : AppState) (callback : Callback) : AppState := (callback.serve p idp app).2.app

/-- The principal that a callback answers with, if it succeeds. -/
def principalId (app : AppState) (callback : Callback) : Option Uuid :=
  (callback.serve p idp app).1.toOption.map (·.principalId)

/-- The user whom the provider has authenticated. -/
def login (callback : Callback) : Option IdpLogin :=
  (authenticateLogin p idp callback.net callback.txn callback.code).toOption

/-- The provider's name and the `sub` claim, as the provider has sent it. -/
def identity (callback : Callback) : Option (String × Option Json) :=
  (callback.login p idp).map fun login =>
    (login.provider.name, login.userInfo.rawClaims.field "sub")

/-- The email claim, as the program reads it. -/
def email (callback : Callback) : Option String :=
  (callback.login p idp).map (·.userInfo.email)

/-- The lookup fails although there is a principal with this email. -/
def overlooks (app : AppState) (callback : Callback) : Bool :=
  (callback.tape.fault 0).isSome && (callback.email p idp).any fun email =>
    app.db.principals.any (·.email == email)

def binding (app : AppState) (callback : Callback) : Bool × Option Uuid :=
  (callback.overlooks p idp app, callback.principalId p idp app)

end Callback

section

variable (p : Platform) (idp : IdpConfig)

/-- Every login of a run succeeds. -/
def AllSucceed : AppState → List Callback → Prop :=
  Along (Callback.step p idp) fun app callback => (callback.principalId p idp app).isSome

/-- Two logins are bound to the same principal exactly if they have the same identity. -/
def IdentitiesKept (app : AppState) (callbacks : List Callback) : Prop :=
  (transcript (Callback.step p idp) (Callback.principalId p idp) app callbacks).Pairwise
    fun first second => first.2 = second.2 ↔
      first.1.identity p idp = second.1.identity p idp

/-- Two logins carry the same email, which neither fails to look up, exactly if they have
the same identity. -/
def EmailsIdentify (app : AppState) (callbacks : List Callback) : Prop :=
  (transcript (Callback.step p idp) (Callback.overlooks p idp) app callbacks).Pairwise
    fun first second =>
      (first.1.email p idp = second.1.email p idp ∧ first.2 = false ∧ second.2 = false) ↔
        first.1.identity p idp = second.1.identity p idp

end

section

variable {p : Platform} {idp : IdpConfig} {app : AppState} {callback : Callback}
  {s finish : Serving} {login : IdpLogin} {id : Uuid}

theorem publishLogin_principals (run : publishLogin p login id s = (.ok (), finish)) :
    finish.app.db.principals = s.app.db.principals := by
  rw [publishLogin] at run
  cases htext : login.policyText with
  | none =>
      rw [htext] at run
      cases run
      rfl
  | some text =>
      rw [htext] at run
      have heffect := createPolicy_effect (p := p) ("idp-" ++ id.toString) "yaml" text s
      dsimp only at run
      rw [run] at heffect
      cases heffect with
      | swapped faults fresh id active text engine app => rw [app]

/-- A login binds its email in the table of principals. -/
theorem LoginBound.binds (h : LoginBound login s id finish) :
    Binds PrincipalRow.email PrincipalRow.id s.app.db.principals
      ((s.tape.fault s.tick).isSome && s.app.db.principals.any (·.email == login.userInfo.email))
      login.userInfo.email id finish.app.db.principals := by
  cases h with
  | @found row lookup =>
      rw [Serving.emailRow] at lookup
      split at lookup
      · rename_i hfault
        rw [hfault]
        exact .found (congrArg (Option.map PrincipalRow.id) lookup)
      · cases lookup
  | @provisioned row lookup fresh email =>
      have hfresh : row.id ∉ s.app.db.principals.map (·.id) := by
        simpa [List.any_eq_false] using fresh
      rw [← email] at lookup ⊢
      by_cases habsent : boundId PrincipalRow.email PrincipalRow.id s.app.db.principals
        row.email = none
      · have hany : s.app.db.principals.any (·.email == row.email) = false := by
          simpa [List.any_eq_false] using boundId_eq_none.mp habsent
        rw [hany, Bool.and_false]
        exact .provided habsent hfresh
      · -- The row is there, so it is the lookup that has failed.
        have hany : s.app.db.principals.any (·.email == row.email) = true := by
          simpa [boundId_eq_none] using habsent
        have hfault : (s.tape.fault s.tick).isSome = true := by
          rw [Option.isSome_iff_ne_none]
          intro hnone
          rw [Serving.emailRow, if_pos hnone] at lookup
          exact habsent (congrArg (Option.map PrincipalRow.id) lookup)
        rw [hany, hfault]
        exact .overlooked habsent hfresh

/-- What a successful callback does. -/
theorem Callback.binds (succeeds : (callback.principalId p idp app).isSome) :
    ∃ email id, callback.email p idp = some email ∧ callback.principalId p idp app = some id ∧
      Binds PrincipalRow.email PrincipalRow.id app.db.principals (callback.overlooks p idp app)
        email id (callback.step p idp app).db.principals := by
  rcases hrun : callback.serve p idp app with ⟨outcome, finish⟩
  cases outcome with
  | error e =>
      rw [Callback.principalId, hrun] at succeeds
      cases succeeds
  | ok response =>
      obtain ⟨login, s₁, hlogin, hbound, hpublish⟩ := idpCallback_eq_ok hrun
      have hemail : callback.email p idp = some login.userInfo.email := by
        rw [Callback.email, Callback.login, hlogin]
        rfl
      have hbinds := hbound.binds
      rw [← publishLogin_principals hpublish] at hbinds
      refine ⟨_, response.principalId, hemail, by rw [Callback.principalId, hrun]; rfl, ?_⟩
      rw [Callback.overlooks, hemail, Callback.step, hrun]
      exact hbinds

/-- In a run of successful logins, two of them are bound to the same principal exactly if
they carry the same email and neither has failed to look it up. -/
theorem principalIds_pairwise {callbacks : List Callback}
    (distinct : (app.db.principals.map (·.id)).Nodup)
    (succeed : AllSucceed p idp app callbacks) :
    (transcript (Callback.step p idp) (Callback.binding p idp) app callbacks).Pairwise
      fun first second => first.2.2 = second.2.2 ↔
        first.1.email p idp = second.1.email p idp ∧ first.2.1 = false ∧ second.2.1 = false := by
  refine succeed.pairwise_transcript (fun app => (app.db.principals.map (·.id)).Nodup)
    (fun app answered => ∃ email id, answered.1.email p idp = some email ∧
      answered.2.2 = some id ∧ HeldBinding PrincipalRow.email PrincipalRow.id app.db.principals
        answered.2.1 email id) ?_ ?_ ?_ ?_ distinct
  · intro app callback distinct succeeds
    obtain ⟨email, id, hemail, hid, hbinds⟩ := Callback.binds succeeds
    exact hbinds.distinct distinct
  · intro app callback distinct succeeds
    obtain ⟨email, id, hemail, hid, hbinds⟩ := Callback.binds succeeds
    exact ⟨email, id, hemail, hid, hbinds.held distinct⟩
  · rintro app callback answered succeeds ⟨email, id, hemail, hid, hheld⟩
    obtain ⟨email', id', hemail', hid', hbinds⟩ := Callback.binds succeeds
    exact ⟨email, id, hemail, hid, hheld.binds hbinds⟩
  · rintro app callback answered succeeds ⟨email, id, hemail, hid, hheld⟩
    obtain ⟨email', id', hemail', hid', hbinds⟩ := Callback.binds succeeds
    dsimp only [Callback.binding]
    rw [hemail, hid, hemail', hid', Option.some_inj, Option.some_inj]
    exact hheld.eq_iff hbinds

/-- In a run of successful logins, principals are identities exactly if emails are, and no
known email is overlooked. -/
theorem identitiesKept_iff {callbacks : List Callback}
    (distinct : (app.db.principals.map (·.id)).Nodup)
    (succeed : AllSucceed p idp app callbacks) :
    IdentitiesKept p idp app callbacks ↔ EmailsIdentify p idp app callbacks := by
  have hpairs := principalIds_pairwise distinct succeed
  have hids : (transcript (Callback.step p idp) (Callback.binding p idp) app callbacks).map
      (fun answered => (answered.1, answered.2.2)) =
        transcript (Callback.step p idp) (Callback.principalId p idp) app callbacks :=
    map_transcript (Callback.binding p idp) Prod.snd
  have hlookups : (transcript (Callback.step p idp) (Callback.binding p idp) app callbacks).map
      (fun answered => (answered.1, answered.2.1)) =
        transcript (Callback.step p idp) (Callback.overlooks p idp) app callbacks :=
    map_transcript (Callback.binding p idp) Prod.fst
  rw [IdentitiesKept, EmailsIdentify, ← hids, ← hlookups, List.pairwise_map, List.pairwise_map]
  constructor
  · intro h
    exact (hpairs.and h).imp fun ⟨hbound, hkept⟩ => hbound.symm.trans hkept
  · intro h
    exact (hpairs.and h).imp fun ⟨hbound, hidentify⟩ => hbound.trans hidentify

end

/-- The provider of a company. -/
def companyIdp : IdpConfig :=
  ⟨true, [⟨"corp", "https://idp", "patroclus", "secret", [], "groups", []⟩]⟩

/-- The claims of a user, who may have no email. -/
def userClaims (sub : String) : Option String → Json
  | some email => .object [("email", .string email), ("sub", .string sub)]
  | none => .object [("sub", .string sub)]

/-- The callback of a user; a new principal gets the id that is drawn first. -/
def callingBack (sub : String) (email : Option String) (firstId : Nat) : Callback where
  net := {
    post _ _ := .ok (.object [("access_token", .string "token")])
    get _ _ := .ok (userClaims sub email) }
  txn := some ⟨"corp", "verifier", 0⟩
  code := "code"
  tape := .steady opening firstId

theorem callingBack_identity (sub : String) (email : Option String) (firstId : Nat) :
    (callingBack sub email firstId).identity .unsigned companyIdp =
      some ("corp", some (.string sub)) := by
  cases email with
  | some email => rfl
  | none => rfl

theorem callingBack_email (sub : String) (email : Option String) (firstId : Nat) :
    (callingBack sub email firstId).email .unsigned companyIdp = some (email.getD "") := by
  cases email with
  | some email => rfl
  | none => rfl

theorem callingBack_overlooks (app : AppState) (sub : String) (email : Option String)
    (firstId : Nat) :
    (callingBack sub email firstId).overlooks .unsigned companyIdp app = false := rfl

/-- Alice, Bob, and Alice again. -/
def colleagues : List Callback := [
  callingBack "1" (some "alice@corp") 200,
  callingBack "2" (some "bob@corp") 210,
  callingBack "1" (some "alice@corp") 220]

theorem colleagues_succeed : AllSucceed .unsigned companyIdp initialWorld.app colleagues :=
  ⟨by decide, by decide, by decide, trivial⟩

theorem identitiesKept_colleagues :
    IdentitiesKept .unsigned companyIdp initialWorld.app colleagues := by
  have hdistinct : (initialWorld.app.db.principals.map (·.id)).Nodup := List.nodup_nil
  refine (identitiesKept_iff hdistinct colleagues_succeed).mpr ?_
  simp [EmailsIdentify, transcript, colleagues, callingBack_identity, callingBack_email,
    callingBack_overlooks]

/-- Identities as a promise about every run of successful logins. -/
def IdentitiesAlwaysKept (p : Platform) (idp : IdpConfig) (app : AppState) : Prop :=
  ∀ callbacks, AllSucceed p idp app callbacks → IdentitiesKept p idp app callbacks

/-- Two users without an email are bound to one principal. -/
theorem not_identitiesAlwaysKept :
    ¬ IdentitiesAlwaysKept .unsigned companyIdp initialWorld.app := by
  intro h
  have hkept := h [callingBack "1" none 200, callingBack "2" none 210]
    ⟨by decide, by decide, trivial⟩
  have hpair := (List.pairwise_cons.mp hkept).1 _ List.mem_cons_self
  have hsame := hpair.mp (by decide)
  rw [callingBack_identity, callingBack_identity] at hsame
  revert hsame
  simp

end Patroclus
