import Patroclus.Api.Vault
import Patroclus.Foundation.Run
import Mathlib.Data.Fintype.EquivFin

/-!
# Authorisation at the vault

A vending call names the scopes that it wants and the token of the agent that it acts for,
and the credential that it reads carries scopes and an expiry. The handler compares none of
them: it vends whenever the credential opens and the provider answers. So the only
deployments in which every vend is authorised are those in which nothing can be vended.
-/

namespace Patroclus

open Foundation

/-- The token is recorded, and has neither been revoked nor expired. -/
def AppState.NamesLiveToken (p : Platform) (app : AppState) (jti : String) (now : Instant) : Prop :=
  ∃ token ∈ app.db.tokens, token.id = jti ∧ token.revoked = false ∧ jti ∉ app.jtiStore ∧
    ∃ expiresAt, p.parseFromRfc3339 token.expiresAt = some expiresAt ∧ now ≤ expiresAt

namespace Deployment

/-- What a vend of a credential at a time needs to be authorised. -/
structure Authorises (p : Platform) (d : Deployment) (req : VendCredentialBody)
    (row : VaultCredentialRow) (now : Instant) : Prop where
  attenuated : ∀ scope ∈ req.requestedScopes, scope ∈ row.scopes
  live : ∀ expiresAt, row.expiresAt.bind p.parseFromRfc3339 = some expiresAt → now ≤ expiresAt
  named : d.world.app.NamesLiveToken p req.agentTokenJti now

/-- Every call that vends an access token, whatever the provider answers, satisfies `good`
with the credential that it reads and the time at which it reads it. -/
def EveryVend (p : Platform) (aead : Aead) (d : Deployment)
    (good : VendCredentialBody → VaultCredentialRow → Instant → Prop) : Prop :=
  ∀ req r response, (d.handle p aead (.vend req) r).1 = .ok (.vended response) →
    ∀ row, latestCredential req.principalId req.provider d.credentials = some row →
      good req row (r.now 0)

/-- No access token is vended without authorisation. -/
def VendsAuthorised (p : Platform) (aead : Aead) (d : Deployment) : Prop :=
  d.EveryVend p aead (d.Authorises p)

/-- The credential of a principal for a provider can be vended. -/
structure Vendable (p : Platform) (aead : Aead) (d : Deployment) (principalId : Uuid)
    (provider : String) (row : VaultCredentialRow) : Prop where
  up : d.world.up = true
  known : provider ∈ knownProviders
  found : latestCredential principalId provider d.credentials = some row
  opens : ∃ vault refreshToken, d.vault = some vault ∧
    vault.decrypt aead row.encryptedToken row.nonce = .ok refreshToken

/-- No storing call for one of the known providers is answered with success. -/
def StoresNothingVendable (p : Platform) (aead : Aead) (d : Deployment) : DeploymentInput → Prop
  | .vault (.store req) r => req.provider ∈ knownProviders →
      ∀ response, (d.handle p aead (.store req) r).1 ≠ .ok (.stored response)
  | _ => True

section

variable {p : Platform} {aead : Aead} {d : Deployment}

/-! ## When a vend succeeds -/

/-- Only what can be vended is vended. -/
theorem vendable_of_vended {req : VendCredentialBody} {r : VaultReadings}
    {response : VendCredentialResponse} {row : VaultCredentialRow}
    (h : (d.handle p aead (.vend req) r).1 = .ok (.vended response))
    (found : latestCredential req.principalId req.provider d.credentials = some row) :
    d.Vendable p aead req.principalId req.provider row := by
  obtain ⟨hup, hvend⟩ := handle_vend_eq_ok.mp h
  obtain ⟨refreshToken, provider, -, -, htoken, hprovider, -⟩ := vendCredential_eq_ok.mp hvend
  obtain ⟨-, -, vault, latest, hvault, hlatest, hopens⟩ := refreshToken_eq_ok.mp htoken
  obtain rfl : row = latest := Option.some.inj (found.symm.trans hlatest)
  exact {
    up := hup
    known := createProvider_isSome_iff.mp (Option.isSome_iff_exists.mpr ⟨provider, hprovider⟩)
    found := found
    opens := ⟨vault, refreshToken, hvault, hopens⟩ }

/-- What can be vended is vended to any request for it, at any time. -/
theorem Vendable.vended {req : VendCredentialBody} {row : VaultCredentialRow}
    (h : d.Vendable p aead req.principalId req.provider row) (now : Instant) :
    ∃ response, (d.handle p aead (.vend req) (.steady now 0 ⟨0⟩)).1 = .ok (.vended response) := by
  obtain ⟨vault, refreshToken, hvault, hopens⟩ := h.opens
  obtain ⟨provider, hprovider⟩ : ∃ provider, createProvider req.provider
      (req.clientId.getD "") (req.clientSecret.getD "") = some provider :=
    Option.isSome_iff_exists.mp (createProvider_isSome_iff.mpr h.known)
  obtain ⟨answered, hexchange, hexpiry⟩ :=
    exchangeRefresh_vendingAnswer hprovider refreshToken req.requestedScopes
  have hnever : vendedExpiry answered.expiresIn now = .ok none := by
    rw [hexpiry]
    rfl
  have htoken : d.refreshToken p aead req.principalId req.provider (.steady now 0 ⟨0⟩) =
      .ok refreshToken :=
    refreshToken_eq_ok.mpr ⟨rfl, rfl, vault, row, hvault, h.found, hopens⟩
  exact ⟨_, handle_vend_eq_ok.mpr ⟨h.up, vendCredential_eq_ok.mpr
    ⟨refreshToken, provider, answered, none, htoken, hprovider, hexchange, hnever, rfl⟩⟩⟩

/-- A requirement that each exposed credential has a request to escape from is met by every
vend exactly if no exposed credential can be vended. -/
theorem everyVend_iff {good : VendCredentialBody → VaultCredentialRow → Instant → Prop}
    (exposed : VaultCredentialRow → Prop)
    (safe : ∀ req row now, ¬ exposed row → good req row now)
    (escapes : ∀ principalId provider row, exposed row → ∃ req now,
      req.principalId = principalId ∧ req.provider = provider ∧ ¬ good req row now) :
    d.EveryVend p aead good ↔ ∀ principalId provider row,
      d.Vendable p aead principalId provider row → ¬ exposed row := by
  constructor
  · intro h principalId provider row hvendable hexposed
    obtain ⟨req, now, rfl, rfl, hbad⟩ := escapes principalId provider row hexposed
    obtain ⟨response, hvended⟩ := hvendable.vended now
    exact hbad (h req (.steady now 0 ⟨0⟩) response hvended row hvendable.found)
  · intro h req r response hvended row hfound
    exact safe req row (r.now 0) (h _ _ row (vendable_of_vended hvended hfound))

/-- Some text is not in a list. -/
private theorem exists_notMem (texts : List String) : ∃ text, text ∉ texts := by
  obtain ⟨text, h⟩ := Infinite.exists_notMem_finset texts.toFinset
  exact ⟨text, fun hmem => h (List.mem_toFinset.mpr hmem)⟩

/-- The requested scopes are held to the stored ones only where nothing can be vended. -/
theorem everyVend_attenuated_iff :
    d.EveryVend p aead (fun req row _ => ∀ scope ∈ req.requestedScopes, scope ∈ row.scopes) ↔
      ∀ principalId provider row, ¬ d.Vendable p aead principalId provider row := by
  rw [everyVend_iff (fun _ => True) fun _ _ _ h => absurd trivial h]
  · simp
  · intro principalId provider row _
    obtain ⟨scope, hscope⟩ := exists_notMem row.scopes
    refine ⟨⟨principalId, provider, [scope], "", none, none⟩, 0, rfl, rfl, fun h => ?_⟩
    exact hscope (h scope List.mem_cons_self)

/-- An expiry is observed only where no credential that has one can be vended. -/
theorem everyVend_live_iff :
    d.EveryVend p aead (fun _ row now =>
        ∀ expiresAt, row.expiresAt.bind p.parseFromRfc3339 = some expiresAt → now ≤ expiresAt) ↔
      ∀ principalId provider row, d.Vendable p aead principalId provider row →
        row.expiresAt.bind p.parseFromRfc3339 = none := by
  rw [everyVend_iff fun row => row.expiresAt.bind p.parseFromRfc3339 ≠ none]
  · simp
  · intro req row now h expiresAt hexpiresAt
    rw [not_not] at h
    rw [h] at hexpiresAt
    cases hexpiresAt
  · intro principalId provider row h
    obtain ⟨expiresAt, hexpiresAt⟩ := Option.ne_none_iff_exists'.mp h
    refine ⟨⟨principalId, provider, [], "", none, none⟩, expiresAt + 1, rfl, rfl, fun hlive => ?_⟩
    exact (Int.lt_succ expiresAt).not_ge (hlive expiresAt hexpiresAt)

/-- The agent's token is asked after only where nothing can be vended. -/
theorem everyVend_named_iff :
    d.EveryVend p aead (fun req _ now => d.world.app.NamesLiveToken p req.agentTokenJti now) ↔
      ∀ principalId provider row, ¬ d.Vendable p aead principalId provider row := by
  rw [everyVend_iff (fun _ => True) fun _ _ _ h => absurd trivial h]
  · simp
  · intro principalId provider row _
    obtain ⟨jti, hjti⟩ := exists_notMem (d.world.app.db.tokens.map (·.id))
    refine ⟨⟨principalId, provider, [], jti, none, none⟩, 0, rfl, rfl, ?_⟩
    rintro ⟨token, htoken, rfl, -⟩
    exact hjti (List.mem_map_of_mem htoken)

/-- Every vend is authorised only where nothing can be vended. -/
theorem vendsAuthorised_iff : d.VendsAuthorised p aead ↔
    ∀ principalId provider row, ¬ d.Vendable p aead principalId provider row := by
  constructor
  · intro h
    exact everyVend_attenuated_iff.mp fun req r response hvended row hfound =>
      (h req r response hvended row hfound).attenuated
  · intro h req r response hvended row hfound
    exact {
      attenuated := everyVend_attenuated_iff.mpr h req r response hvended row hfound
      live := everyVend_live_iff.mpr (fun _ _ _ hvendable => absurd hvendable (h _ _ _))
        req r response hvended row hfound
      named := everyVend_named_iff.mpr h req r response hvended row hfound }

/-! ## Runs -/

/-- No credential of a known provider is in the table. -/
def HoldsNothingVendable (d : Deployment) : Prop :=
  ∀ row ∈ d.credentials, row.provider ∉ knownProviders

theorem HoldsNothingVendable.authorised (h : d.HoldsNothingVendable) :
    d.VendsAuthorised p aead := by
  rw [vendsAuthorised_iff]
  intro principalId provider row hvendable
  obtain ⟨hmem, -, rfl⟩ := latestCredential_spec hvendable.found
  exact h row hmem hvendable.known

theorem HoldsNothingVendable.step {input : DeploymentInput} (h : d.HoldsNothingVendable)
    (ok : d.StoresNothingVendable p aead input) : (d.step p aead input).HoldsNothingVendable := by
  have heffect : d.Effect p aead input (d.step p aead input) := step_effect d input
  generalize d.step p aead input = after at heffect
  cases heffect with
  | kept credentials stored vault up =>
      intro row hrow
      rw [credentials] at hrow
      exact h row hrow
  | started => exact h
  | @sealed req r vault encrypted nonce response answered up running encrypts =>
      intro row hrow
      obtain hold | hnew := List.mem_append.mp hrow
      · exact h row (List.mem_filter.mp hold).1
      · rw [List.mem_singleton.mp hnew]
        exact fun hknown => ok hknown response answered

/-- The first credential of a known provider can be vended as soon as it is stored. -/
theorem HoldsNothingVendable.exposed {req : StoreCredentialRequest} {r : VaultReadings}
    {response : StoreCredentialResponse} (h : d.HoldsNothingVendable)
    (known : req.provider ∈ knownProviders)
    (answered : (d.handle p aead (.store req) r).1 = .ok (.stored response)) :
    ¬ ((d.handle p aead (.store req) r).2).VendsAuthorised p aead := by
  obtain ⟨hup, vault, encrypted, nonce, hvault, hencrypt, hafter⟩ := handle_store_eq_ok answered
  rw [hafter, vendsAuthorised_iff]
  intro hnone
  let row := newCredential p vault req encrypted nonce r
  refine hnone req.principalId req.provider row
    ⟨hup, known, ?_, vault, req.refreshToken, hvault, ?_⟩
  · have hothers : (d.credentials.filter (·.id != r.id)).filter (fun other =>
        other.principalId == req.principalId && other.provider == req.provider) = [] := by
      rw [List.filter_eq_nil_iff]
      intro other hother hpair
      rw [Bool.and_eq_true, beq_iff_eq, beq_iff_eq] at hpair
      exact h other (List.mem_filter.mp hother).1 (hpair.2 ▸ known)
    have hown : [row].filter (fun other =>
        other.principalId == req.principalId && other.provider == req.provider) = [row] := by
      rw [List.filter_cons_of_pos (by simp [row, newCredential]), List.filter_nil]
    show latestCredential req.principalId req.provider
      (d.credentials.filter (·.id != r.id) ++ [row]) = some row
    rw [latestCredential, List.filter_append, hothers, hown]
    rfl
  · exact Vault.decrypt_encrypt aead hencrypt

/-- Every vend in every state of a run is authorised exactly if the run never stores a
credential that can be vended. -/
theorem vendsAuthorised_run_iff {path : String} {keyFile : Option String}
    {inputs : List DeploymentInput} :
    (∀ done, done <+: inputs →
        ((initialDeployment path keyFile).run p aead done).VendsAuthorised p aead) ↔
      Along (step p aead) (StoresNothingVendable p aead) (initialDeployment path keyFile)
        inputs := by
  refine (Along.iff_safe (fun _ h => h.authorised) (fun _ _ h ok => h.step ok) ?_
    (I := HoldsNothingVendable) ?_).symm
  · intro d input h hbroken
    cases input with
    | server input fileError => exact absurd trivial hbroken
    | vault call r =>
        cases call with
        | list | vend req | generateKey => exact absurd trivial hbroken
        | store req =>
            simp only [StoresNothingVendable, not_forall, not_not] at hbroken
            obtain ⟨hknown, response, hanswered⟩ := hbroken
            exact h.exposed hknown hanswered
  · exact List.forall_mem_nil _

end

end Deployment

/-! ## A vend without authorisation -/

/-- A credential for reading, which expires with the epoch, is stored; no token has ever
been issued. -/
def vendingRun : List DeploymentInput := [
  .server (.steady .restart 0 100) none,
  .vault .generateKey (.steady 0 1 ⟨0⟩),
  .server (.steady .restart 0 110) none,
  .server (.steady (.call (.createPrincipal ⟨"alice", "idp", "alice@corp", "Alice"⟩)) 0 200) none,
  .vault (.store ⟨⟨200⟩, "github", "ghp_secret", ["read:user"], some 0⟩) (.steady 0 1 ⟨700⟩)]

def vendingDeployment : Deployment :=
  (initialDeployment "keys/vault.key" none).run Platform.unsigned .tagged vendingRun

/-- A request for more than was stored, in the name of a token that does not exist. -/
def strayVend : VendCredentialBody := ⟨⟨200⟩, "github", ["admin:org"], "no-such-token", none, none⟩

/-- A second later it is answered with a token, although each of the requirements fails. -/
theorem not_vendsAuthorised :
    (vendingDeployment.handle Platform.unsigned .tagged (.vend strayVend)
        (.steady 1000000000 0 ⟨0⟩)).1 =
      .ok (.vended ⟨"github", "access", ["admin:org"], none, "no-such-token"⟩) ∧
    (∃ row, latestCredential ⟨200⟩ "github" vendingDeployment.credentials = some row ∧
      "admin:org" ∉ row.scopes ∧
      row.expiresAt.bind Platform.unsigned.parseFromRfc3339 = some 0 ∧
      vendingDeployment.world.app.db.tokens = []) ∧
    ¬ vendingDeployment.VendsAuthorised Platform.unsigned .tagged := by
  have hvended : (vendingDeployment.handle Platform.unsigned .tagged (.vend strayVend)
      (.steady 1000000000 0 ⟨0⟩)).1 =
    .ok (.vended ⟨"github", "access", ["admin:org"], none, "no-such-token"⟩) := by decide +kernel
  have hlatest : (latestCredential ⟨200⟩ "github" vendingDeployment.credentials).isSome := by
    decide +kernel
  have hscopes : ∀ row ∈ vendingDeployment.credentials, row.scopes = ["read:user"] ∧
      row.expiresAt.bind Platform.unsigned.parseFromRfc3339 = some 0 := by decide +kernel
  have htokens : vendingDeployment.world.app.db.tokens = [] := by decide +kernel
  obtain ⟨row, hrow⟩ := Option.isSome_iff_exists.mp hlatest
  obtain ⟨hread, hexpiry⟩ := hscopes row (latestCredential_spec hrow).1
  have hrefused : "admin:org" ∉ row.scopes := by
    rw [hread]
    decide
  refine ⟨hvended, ⟨row, hrow, hrefused, hexpiry, htokens⟩, fun h => hrefused ?_⟩
  exact (h strayVend _ _ hvended row hrow).attenuated "admin:org" List.mem_cons_self

end Patroclus
