import Patroclus.Api.Server
import Patroclus.Foundation.Outcome
import Patroclus.Vault

/-!
# The vault endpoints

A deployment is the server with its key file, the vault that the running process has
loaded from it and the table of credentials. Credentials are stored and vended, a key is
written to the file at any time, and only the start of a process reads it.

`stored` is not part of the program. It lists the credentials whose storing call has
answered success, with the vault that sealed them and what was sealed.
-/

namespace Patroclus

open Foundation

structure VaultCredentialRow where
  id : Uuid
  principalId : Uuid
  provider : String
  encryptedToken : List UInt8
  nonce : List UInt8
  encryptionKeyId : String
  scopes : List String
  expiresAt : Option String
  createdAt : String
  updatedAt : String
deriving DecidableEq, Repr

structure VaultCredentialRecord where
  id : Uuid
  principalId : Uuid
  provider : String
  encryptedToken : List UInt8
  nonce : List UInt8
  encryptionKeyId : String
  scopes : List String
  expiresAt : Option Instant
  createdAt : Instant
  updatedAt : Instant

/-- The arguments of `store_vault_credential`, with what the call draws, reads and meets. -/
structure CredentialWrite where
  principalId : Uuid
  provider : String
  encryptedToken : List UInt8
  nonce : List UInt8
  encryptionKeyId : String
  scopes : List String
  expiresAt : Option Instant
  id : Uuid
  now : Instant
  principals : List PrincipalRow
  fault : Option String

structure StoreCredentialRequest where
  principalId : Uuid
  provider : String
  refreshToken : String
  scopes : List String
  expiresAt : Option Instant

structure StoreCredentialResponse where
  id : Uuid
  provider : String
  principalId : Uuid
  scopes : List String
  stored : Bool
deriving DecidableEq, Repr

structure VendCredentialBody where
  principalId : Uuid
  provider : String
  requestedScopes : List String
  agentTokenJti : String
  clientId : Option String
  clientSecret : Option String

structure VendCredentialResponse where
  provider : String
  accessToken : String
  scopes : List String
  expiresAt : Option Instant
  vendedForJti : String
deriving DecidableEq, Repr

structure StoredCredential where
  row : VaultCredentialRow
  vault : Vault
  refreshToken : String
deriving DecidableEq, Repr

structure Deployment where
  world : World
  encryptionKeyPath : String
  keyFile : Option String
  vault : Option Vault
  credentials : List VaultCredentialRow
  stored : List StoredCredential

/-- What a call draws, reads off the clock and meets on its way. `torn` is what a failed
write leaves of the key file. -/
structure VaultReadings where
  nonce : Vector UInt8 12
  key : Vector UInt8 32
  id : Uuid
  now : Nat → Instant
  fault : Nat → Option String
  fileError : Option String
  torn : Option String
  network : FormPost → ProviderAnswer

inductive VaultCall where
  | store (req : StoreCredentialRequest)
  | list
  | vend (req : VendCredentialBody)
  | generateKey

inductive VaultReply where
  | stored (response : StoreCredentialResponse)
  | listed (note : String)
  | vended (response : VendCredentialResponse)
  | generated (path : String)
deriving DecidableEq, Repr

/-- An input of the server, with the error that the key file is read with when it
starts, or a call of a vault endpoint. -/
inductive DeploymentInput where
  | server (input : Input) (fileError : Option String)
  | vault (call : VaultCall) (readings : VaultReadings)

/-- `std::fs::read_to_string`. -/
def readToString (error file : Option String) : Except String String :=
  match error, file with
  | some message, _ => .error message
  | none, some text => .ok text
  | none, none => .error "No such file or directory (os error 2)"

/-- A statement that fails when the database says so, or when it violates a constraint. -/
def vaultStatement {α : Type} (fault : Option String) (outcome : Except String α) :
    Except Failure α :=
  match fault with
  | some message => .error (.error (.database message))
  | none => outcome.mapError fun message => .error (.database message)

/-- The first of the rows whose key no other exceeds: `ORDER BY key DESC LIMIT 1`. -/
def latestBy {ρ : Type} (key : ρ → String) (rows : List ρ) : Option ρ :=
  rows.foldl
    (fun best row =>
      match best with
      | none => some row
      | some other => if key other < key row then some row else some other) none

/-- `INSERT OR REPLACE`: the row takes the place of one with its id. -/
def insertOrReplaceCredential (foreignKeys : Bool) (principals : List PrincipalRow)
    (row : VaultCredentialRow) (rows : List VaultCredentialRow) :
    Except String (List VaultCredentialRow) := do
  Db.checkReference foreignKeys (principals.any (·.id == row.principalId))
  return rows.filter (·.id != row.id) ++ [row]

/-- The credential that a principal and a provider are looked up by. -/
def latestCredential (principalId : Uuid) (provider : String) (rows : List VaultCredentialRow) :
    Option VaultCredentialRow :=
  latestBy (·.updatedAt) (rows.filter fun row =>
    row.principalId == principalId && row.provider == provider)

section

variable (p : Platform) (aead : Aead)

/-- A row as it is read; dates that cannot be read are the time of reading. -/
def VaultCredentialRow.toRecord (row : VaultCredentialRow) (now : Nat → Instant) :
    VaultCredentialRecord where
  id := row.id
  principalId := row.principalId
  provider := row.provider
  encryptedToken := row.encryptedToken
  nonce := row.nonce
  encryptionKeyId := row.encryptionKeyId
  scopes := row.scopes
  expiresAt := row.expiresAt.bind p.parseFromRfc3339
  createdAt := (p.parseFromRfc3339 row.createdAt).getD (now 0)
  updatedAt := (p.parseFromRfc3339 row.updatedAt).getD (now 1)

/-- The row that a call of `store_vault_credential` inserts. -/
def CredentialWrite.row (write : CredentialWrite) : VaultCredentialRow where
  id := write.id
  principalId := write.principalId
  provider := write.provider
  encryptedToken := write.encryptedToken
  nonce := write.nonce
  encryptionKeyId := write.encryptionKeyId
  scopes := write.scopes
  expiresAt := write.expiresAt.map p.toRfc3339
  createdAt := p.toRfc3339 write.now
  updatedAt := p.toRfc3339 write.now

namespace Database

/-- The answer, and the table after the call; a failing statement leaves it as it was. -/
def storeVaultCredential (write : CredentialWrite) (rows : List VaultCredentialRow) :
    Except Failure Uuid × List VaultCredentialRow :=
  match vaultStatement write.fault
      (insertOrReplaceCredential p.foreignKeys write.principals (write.row p) rows) with
  | .ok rows => (.ok write.id, rows)
  | .error e => (.error e, rows)

def getVaultCredential (principalId : Uuid) (provider : String) (rows : List VaultCredentialRow)
    (r : VaultReadings) : Except Failure (Option VaultCredentialRecord) := do
  vaultStatement (r.fault 0) (.ok ())
  vaultStatement (r.fault 1)
    (.ok ((latestCredential principalId provider rows).map (·.toRecord p r.now)))

end Database

namespace Deployment

/-- The row that is stored for a request. -/
def newCredential (vault : Vault) (req : StoreCredentialRequest) (encrypted nonce : List UInt8)
    (r : VaultReadings) : VaultCredentialRow where
  id := r.id
  principalId := req.principalId
  provider := req.provider
  encryptedToken := encrypted
  nonce := nonce
  encryptionKeyId := vault.keyId
  scopes := req.scopes
  expiresAt := req.expiresAt.map p.toRfc3339
  createdAt := p.toRfc3339 (r.now 0)
  updatedAt := p.toRfc3339 (r.now 0)

def storeCredential (d : Deployment) (req : StoreCredentialRequest) (r : VaultReadings) :
    Except Failure (StoreCredentialResponse × Deployment) :=
  match d.vault with
  | none =>
      .error (.error (.vault "Vault not initialized — no encryption key configured"))
  | some vault => do
      let (encrypted, nonce) ← (vault.encrypt aead r.nonce req.refreshToken).mapError .error
      let row := newCredential p vault req encrypted nonce r
      let credentials ← vaultStatement (r.fault 0)
        (insertOrReplaceCredential p.foreignKeys d.world.app.db.principals row d.credentials)
      return (⟨row.id, req.provider, req.principalId, req.scopes, true⟩,
        { d with credentials, stored := d.stored ++ [⟨row, vault, req.refreshToken⟩] })

def listVaultCredentials (d : Deployment) : Except Failure String :=
  match d.vault with
  | none => .error (.error (.vault "Vault not initialized"))
  | some _ => .ok "Vault credential listing requires admin authentication (not yet implemented)"

/-- The refresh token that a vending call recovers. -/
def refreshToken (d : Deployment) (principalId : Uuid) (provider : String) (r : VaultReadings) :
    Except Failure String :=
  match d.vault with
  | none => .error (.error (.vault "Vault not initialized"))
  | some vault => do
      match ← Database.getVaultCredential p principalId provider d.credentials r with
      | none =>
          .error (.error (.vault ("No stored credential for provider '" ++ provider ++
            "' and principal '" ++ principalId.toString ++ "'")))
      | some record => vault.decrypt aead record.encryptedToken record.nonce

/-- The expiry of a vended token; a time that is no date is a panic. -/
def vendedExpiry (expiresIn : Option Nat) (now : Instant) : Except Failure (Option Instant) :=
  match expiresIn with
  | none => .ok none
  | some seconds =>
      match now.addSeconds (asI64 seconds) with
      | some expiresAt => .ok (some expiresAt)
      | none => .error .panic

def vendCredential (d : Deployment) (req : VendCredentialBody) (r : VaultReadings) :
    Except Failure VendCredentialResponse := do
  let refreshToken ← d.refreshToken p aead req.principalId req.provider r
  match createProvider req.provider (req.clientId.getD "") (req.clientSecret.getD "") with
  | none => .error (.error (.vault ("Unknown provider: " ++ req.provider)))
  | some provider => do
      let response ←
        (provider.exchangeRefresh r.network refreshToken req.requestedScopes).mapError .error
      let expiresAt ← vendedExpiry response.expiresIn (r.now 2)
      return ⟨req.provider, response.accessToken, req.requestedScopes, expiresAt,
        req.agentTokenJti⟩

/-- Overwrites the key file; the running vault keeps its key. -/
def generateVaultKey (d : Deployment) (r : VaultReadings) : Except Failure String × Deployment :=
  match r.fileError with
  | some message => (.error (.error (.config message)), { d with keyFile := r.torn })
  | none => (.ok d.encryptionKeyPath, { d with keyFile := some (Vault.encodedKey r.key) })

/-- The answer to a call and the state after it. -/
def handle (d : Deployment) (call : VaultCall) (r : VaultReadings) :
    Except Failure VaultReply × Deployment :=
  if d.world.up then
    match call with
    | .store req =>
        match d.storeCredential p aead req r with
        | .ok (response, after) => (.ok (.stored response), after)
        | .error e => (.error e, d)
    | .list => (d.listVaultCredentials.map .listed, d)
    | .vend req => ((d.vendCredential p aead req r).map .vended, d)
    | .generateKey => ((d.generateVaultKey r).1.map .generated, (d.generateVaultKey r).2)
  else (.error .unreachable, d)

/-- The vault that a process starts with; without a readable key there is none. -/
def loadVault (d : Deployment) (fileError : Option String) : Option Vault :=
  (Vault.fromFile p (readToString fileError d.keyFile)).toOption

def step (d : Deployment) : DeploymentInput → Deployment
  | .server input fileError =>
      let world := d.world.step p input
      match input.event with
      | .call _ => { d with world }
      | .restart => { d with world, vault := if world.up then d.loadVault p fileError else none }
  | .vault call r => (d.handle p aead call r).2

/-- The deployment after a run. -/
def run (d : Deployment) (inputs : List DeploymentInput) : Deployment :=
  inputs.foldl (step p aead) d

end Deployment

/-- Nothing has been stored, and no server runs; a key file may be there. -/
def initialDeployment (encryptionKeyPath : String) (keyFile : Option String) : Deployment :=
  ⟨initialWorld, encryptionKeyPath, keyFile, none, [], []⟩

end

/-! ## Looking credentials up -/

section

variable {ρ : Type} {key : ρ → String} {rows : List ρ} {row : ρ}

/-- A search that has found something, or that has something left to find, finds a row. -/
private theorem latestBy_from (key : ρ → String) (best : Option ρ) (rows : List ρ)
    (nonempty : best = none → rows ≠ []) :
    ∃ row, rows.foldl (fun best row =>
        match best with
        | none => some row
        | some other => if key other < key row then some row else some other) best = some row ∧
      (best = some row ∨ row ∈ rows) := by
  induction rows generalizing best with
  | nil =>
      cases best with
      | none => exact absurd rfl (nonempty rfl)
      | some row => exact ⟨row, rfl, .inl rfl⟩
  | cons head rows ih =>
      cases best with
      | none =>
          obtain ⟨row, hfold, hrow⟩ := ih (some head) nofun
          refine ⟨row, hfold, .inr ?_⟩
          obtain hhead | htail := hrow
          · exact Option.some.inj hhead ▸ List.mem_cons_self
          · exact List.mem_cons_of_mem head htail
      | some other =>
          by_cases hlt : key other < key head
          · obtain ⟨row, hfold, hrow⟩ := ih (some head) nofun
            refine ⟨row, by simpa only [List.foldl_cons, hlt, if_true] using hfold, .inr ?_⟩
            obtain hhead | htail := hrow
            · exact Option.some.inj hhead ▸ List.mem_cons_self
            · exact List.mem_cons_of_mem head htail
          · obtain ⟨row, hfold, hrow⟩ := ih (some other) nofun
            refine ⟨row, by simpa only [List.foldl_cons, hlt, if_false] using hfold, ?_⟩
            exact hrow.imp_right (List.mem_cons_of_mem head)

/-- Among some rows there is a latest. -/
theorem exists_latestBy (key : ρ → String) (h : rows ≠ []) :
    ∃ row ∈ rows, latestBy key rows = some row := by
  obtain ⟨row, hfold, hnone | hrow⟩ := latestBy_from key none rows fun _ => h
  · cases hnone
  · exact ⟨row, hrow, hfold⟩

theorem mem_of_latestBy (h : latestBy key rows = some row) : row ∈ rows := by
  cases hrows : rows with
  | nil =>
      rw [hrows] at h
      cases h
  | cons head rest =>
      have hne : rows ≠ [] := by
        rw [hrows]
        exact List.cons_ne_nil head rest
      obtain ⟨other, hother, hlatest⟩ := exists_latestBy key hne
      rw [hlatest] at h
      rw [← hrows, ← Option.some.inj h]
      exact hother

/-- Where every key is greater than those before it, the last row is the latest. -/
theorem latestBy_of_increasing (h : rows.Pairwise fun row row' => key row < key row') :
    latestBy key rows = rows.getLast? := by
  obtain rfl | ⟨earlier, last, rfl⟩ := rows.eq_nil_or_concat'
  · rfl
  · obtain ⟨-, -, hlast⟩ := List.pairwise_append.mp h
    rw [List.getLast?_append_of_ne_nil _ (List.cons_ne_nil _ _), List.getLast?_singleton, latestBy,
      List.foldl_append, List.foldl_cons, List.foldl_nil]
    cases hlatest : latestBy key earlier with
    | none =>
        rw [latestBy] at hlatest
        rw [hlatest]
    | some other =>
        have hless : key other < key last :=
          hlast other (mem_of_latestBy hlatest) last (List.mem_singleton_self last)
        rw [latestBy] at hlatest
        rw [hlatest]
        exact if_pos hless

end

section

variable {principalId : Uuid} {provider : String} {rows : List VaultCredentialRow}
  {row : VaultCredentialRow}

theorem latestCredential_spec (h : latestCredential principalId provider rows = some row) :
    row ∈ rows ∧ row.principalId = principalId ∧ row.provider = provider := by
  have hmem := List.mem_filter.mp (mem_of_latestBy h)
  simpa only [Bool.and_eq_true, beq_iff_eq] using hmem

/-- A principal and a provider for which there is a credential have a latest one. -/
theorem exists_latestCredential (h : row ∈ rows) :
    ∃ latest, latestCredential row.principalId row.provider rows = some latest := by
  have hfound : row ∈ rows.filter fun other =>
      other.principalId == row.principalId && other.provider == row.provider :=
    List.mem_filter.mpr ⟨h, by rw [beq_self_eq_true, beq_self_eq_true]; rfl⟩
  obtain ⟨latest, -, hlatest⟩ := exists_latestBy (·.updatedAt) (List.ne_nil_of_mem hfound)
  exact ⟨latest, hlatest⟩

end

/-! ## What an input can do -/

section

variable {p : Platform} {aead : Aead} {d : Deployment}

open Outcome (bind_eq_ok)

theorem vaultStatement_eq_ok {α : Type} {fault : Option String} {outcome : Except String α}
    {a : α} : vaultStatement fault outcome = .ok a ↔ fault = none ∧ outcome = .ok a := by
  cases fault with
  | none => simp [vaultStatement, Outcome.mapError_eq_ok]
  | some message => simp [vaultStatement]

theorem Database.getVaultCredential_eq_ok {principalId : Uuid} {provider : String}
    {rows : List VaultCredentialRow} {r : VaultReadings} {found : Option VaultCredentialRecord} :
    getVaultCredential p principalId provider rows r = .ok found ↔
      r.fault 0 = none ∧ r.fault 1 = none ∧
        found = (latestCredential principalId provider rows).map (·.toRecord p r.now) := by
  rw [getVaultCredential, bind_eq_ok]
  simp only [vaultStatement_eq_ok, and_true, Except.ok.injEq, exists_const]
  exact and_congr_right fun _ => and_congr_right fun _ => eq_comm

namespace Deployment

/-- A storing call that answers has sealed the token under the running vault, and its row
takes the place of one with its id. -/
theorem storeCredential_eq_ok {req : StoreCredentialRequest} {r : VaultReadings}
    {response : StoreCredentialResponse} {after : Deployment}
    (h : d.storeCredential p aead req r = .ok (response, after)) :
    ∃ vault encrypted nonce, d.vault = some vault ∧
      vault.encrypt aead r.nonce req.refreshToken = .ok (encrypted, nonce) ∧
      after = { d with
        credentials := d.credentials.filter (·.id != r.id) ++
          [newCredential p vault req encrypted nonce r]
        stored := d.stored ++
          [⟨newCredential p vault req encrypted nonce r, vault, req.refreshToken⟩] } := by
  rw [storeCredential] at h
  split at h
  · cases h
  · rename_i vault hvault
    obtain ⟨⟨encrypted, nonce⟩, hencrypt, h⟩ := bind_eq_ok.mp h
    obtain ⟨credentials, hinsert, h⟩ := bind_eq_ok.mp h
    obtain ⟨-, hinsert⟩ := vaultStatement_eq_ok.mp hinsert
    obtain ⟨_, -, hrows⟩ := bind_eq_ok.mp hinsert
    refine ⟨vault, encrypted, nonce, hvault, Outcome.mapError_eq_ok.mp hencrypt, ?_⟩
    cases hrows
    cases h
    rfl

/-- The table after a storing call that answers is that after its `store_vault_credential`. -/
theorem storeCredential_write {req : StoreCredentialRequest} {r : VaultReadings}
    {response : StoreCredentialResponse} {after : Deployment}
    (h : d.storeCredential p aead req r = .ok (response, after)) :
    ∃ write : CredentialWrite, write.principalId = req.principalId ∧
      write.provider = req.provider ∧ write.scopes = req.scopes ∧ write.id = r.id ∧
      write.now = r.now 0 ∧
      Database.storeVaultCredential p write d.credentials =
          (.ok response.id, after.credentials) := by
  rw [storeCredential] at h
  split at h
  · cases h
  · rename_i vault hvault
    obtain ⟨⟨encrypted, nonce⟩, -, h⟩ := bind_eq_ok.mp h
    obtain ⟨credentials, hinsert, h⟩ := bind_eq_ok.mp h
    cases h
    let write : CredentialWrite := ⟨req.principalId, req.provider, encrypted, nonce, vault.keyId,
      req.scopes, req.expiresAt, r.id, r.now 0, d.world.app.db.principals, r.fault 0⟩
    have hwrite : vaultStatement write.fault (insertOrReplaceCredential p.foreignKeys
      write.principals (write.row p) d.credentials) = .ok credentials := hinsert
    refine ⟨write, rfl, rfl, rfl, rfl, rfl, ?_⟩
    rw [Database.storeVaultCredential, hwrite]
    rfl

/-- A storing call that the server answers with success. -/
theorem handle_store_eq_ok {req : StoreCredentialRequest} {r : VaultReadings}
    {response : StoreCredentialResponse}
    (h : (d.handle p aead (.store req) r).1 = .ok (.stored response)) :
    d.world.up = true ∧ ∃ vault encrypted nonce, d.vault = some vault ∧
      vault.encrypt aead r.nonce req.refreshToken = .ok (encrypted, nonce) ∧
      (d.handle p aead (.store req) r).2 = { d with
        credentials := d.credentials.filter (·.id != r.id) ++
          [newCredential p vault req encrypted nonce r]
        stored := d.stored ++
          [⟨newCredential p vault req encrypted nonce r, vault, req.refreshToken⟩] } := by
  cases hup : d.world.up with
  | false =>
      simp only [handle, hup, Bool.false_eq_true, if_false] at h
      cases h
  | true =>
      simp only [handle, hup, if_true] at h ⊢
      cases hstore : d.storeCredential p aead req r with
      | error e =>
          rw [hstore] at h
          cases h
      | ok answer => exact ⟨trivial, storeCredential_eq_ok hstore⟩

/-- A refresh token is recovered from the latest credential, under the running vault. -/
theorem refreshToken_eq_ok {principalId : Uuid} {provider refreshToken : String}
    {r : VaultReadings} : d.refreshToken p aead principalId provider r = .ok refreshToken ↔
      r.fault 0 = none ∧ r.fault 1 = none ∧ ∃ vault row, d.vault = some vault ∧
        latestCredential principalId provider d.credentials = some row ∧
        vault.decrypt aead row.encryptedToken row.nonce = .ok refreshToken := by
  rw [Deployment.refreshToken]
  cases d.vault with
  | none => simp
  | some vault =>
      dsimp only
      rw [bind_eq_ok]
      constructor
      · rintro ⟨found, hget, hdecrypt⟩
        obtain ⟨hprepare, hread, rfl⟩ := Database.getVaultCredential_eq_ok.mp hget
        cases hlatest : latestCredential principalId provider d.credentials with
        | none =>
            rw [hlatest] at hdecrypt
            cases hdecrypt
        | some row =>
            rw [hlatest] at hdecrypt
            exact ⟨hprepare, hread, vault, row, rfl, rfl, hdecrypt⟩
      · rintro ⟨hprepare, hread, _, row, hvault, hlatest, hdecrypt⟩
        obtain rfl := Option.some.inj hvault
        refine ⟨_, Database.getVaultCredential_eq_ok.mpr ⟨hprepare, hread, rfl⟩, ?_⟩
        rw [hlatest]
        exact hdecrypt

/-- An access token is vended for what a known provider answers to a recovered token. -/
theorem vendCredential_eq_ok {req : VendCredentialBody} {r : VaultReadings}
    {response : VendCredentialResponse} : d.vendCredential p aead req r = .ok response ↔
      ∃ refreshToken provider answered expiresAt,
        d.refreshToken p aead req.principalId req.provider r = .ok refreshToken ∧
        createProvider req.provider (req.clientId.getD "") (req.clientSecret.getD "") =
          some provider ∧
        provider.exchangeRefresh r.network refreshToken req.requestedScopes = .ok answered ∧
        vendedExpiry answered.expiresIn (r.now 2) = .ok expiresAt ∧
        response = ⟨req.provider, answered.accessToken, req.requestedScopes, expiresAt,
          req.agentTokenJti⟩ := by
  rw [vendCredential, bind_eq_ok]
  refine exists_congr fun refreshToken => ?_
  cases createProvider req.provider (req.clientId.getD "") (req.clientSecret.getD "") with
  | none => simp
  | some provider =>
      simp only [bind_eq_ok, Outcome.mapError_eq_ok, pure, Except.pure, Except.ok.injEq,
        Option.some.injEq]
      constructor
      · rintro ⟨htoken, answered, hexchange, expiresAt, hexpiry, hresponse⟩
        exact ⟨provider, answered, expiresAt, htoken, rfl, hexchange, hexpiry, hresponse.symm⟩
      · rintro ⟨_, answered, expiresAt, htoken, rfl, hexchange, hexpiry, hresponse⟩
        exact ⟨htoken, answered, hexchange, expiresAt, hexpiry, hresponse.symm⟩

/-- A vending call that the server answers with a token. -/
theorem handle_vend_eq_ok {req : VendCredentialBody} {r : VaultReadings}
    {response : VendCredentialResponse} :
    (d.handle p aead (.vend req) r).1 = .ok (.vended response) ↔
      d.world.up = true ∧ d.vendCredential p aead req r = .ok response := by
  cases hup : d.world.up with
  | false =>
      simp only [handle, hup, Bool.false_eq_true, if_false, false_and, iff_false]
      exact nofun
  | true =>
      simp only [handle, hup, if_true, true_and]
      cases d.vendCredential p aead req r with
      | error e => exact iff_of_false nofun nofun
      | ok vended => simp [Except.map]

/-- What one input can do to the vault and its table. -/
inductive Effect (p : Platform) (aead : Aead) (d : Deployment) : DeploymentInput → Deployment → Prop
  | kept {input : DeploymentInput} {after : Deployment}
      (credentials : after.credentials = d.credentials) (stored : after.stored = d.stored)
      (vault : after.vault = d.vault) (up : after.world.up = d.world.up) :
      Effect p aead d input after
  | started {arrival : Instant} {tape : Tape} {fileError : Option String} :
      Effect p aead d (.server ⟨.restart, arrival, tape⟩ fileError)
        { d with
          world := d.world.step p ⟨.restart, arrival, tape⟩
          vault := if (d.world.step p ⟨.restart, arrival, tape⟩).up then d.loadVault p fileError
            else none }
  | sealed {req : StoreCredentialRequest} {r : VaultReadings} {vault : Vault}
      {encrypted nonce : List UInt8} {response : StoreCredentialResponse}
      (answered : (d.handle p aead (.store req) r).1 = .ok (.stored response))
      (up : d.world.up = true) (running : d.vault = some vault)
      (encrypts : vault.encrypt aead r.nonce req.refreshToken = .ok (encrypted, nonce)) :
      Effect p aead d (.vault (.store req) r)
        { d with
          credentials := d.credentials.filter (·.id != r.id) ++
            [newCredential p vault req encrypted nonce r]
          stored := d.stored ++
            [⟨newCredential p vault req encrypted nonce r, vault, req.refreshToken⟩] }

/-- Every input does one of these things. -/
theorem step_effect (d : Deployment) (input : DeploymentInput) :
    Effect p aead d input (d.step p aead input) := by
  cases input with
  | server input fileError =>
      obtain ⟨event, arrival, tape⟩ := input
      cases event with
      | restart => exact .started
      | call call =>
          refine .kept rfl rfl rfl ?_
          show (d.world.step p ⟨.call call, arrival, tape⟩).up = d.world.up
          cases hup : d.world.up with
          | true => exact World.up_step_call rfl hup
          | false =>
              rw [World.step]
              simp only [hup, Bool.false_eq_true, if_false]
  | vault call r =>
      show Effect p aead d (.vault call r) (d.handle p aead call r).2
      cases hup : d.world.up with
      | false =>
          have hhandle : d.handle p aead call r = (.error .unreachable, d) :=
            if_neg (by rw [hup]; exact Bool.false_ne_true)
          rw [hhandle]
          exact .kept rfl rfl rfl rfl
      | true =>
          cases call with
          | list | vend req =>
              simp only [handle, hup, if_true]
              exact .kept rfl rfl rfl rfl
          | generateKey =>
              simp only [handle, hup, if_true, generateVaultKey]
              split <;> exact .kept rfl rfl rfl rfl
          | store req =>
              have hhandle : d.handle p aead (.store req) r =
                  match d.storeCredential p aead req r with
                  | .ok (response, after) => (.ok (.stored response), after)
                  | .error e => (.error e, d) := if_pos hup
              cases hstore : d.storeCredential p aead req r with
              | error e =>
                  rw [hhandle, hstore]
                  exact .kept rfl rfl rfl rfl
              | ok answer =>
                  obtain ⟨response, after⟩ := answer
                  obtain ⟨vault, encrypted, nonce, hvault, hencrypt, rfl⟩ :=
                    storeCredential_eq_ok hstore
                  rw [hstore] at hhandle
                  have hanswered := congrArg Prod.fst hhandle
                  rw [hhandle]
                  exact .sealed hanswered hup hvault hencrypt

end Deployment

end

/-- Readings without failures, on a clock that stands still; a provider vends a token. -/
def VaultReadings.steady (now : Instant) (key : UInt8) (id : Uuid) : VaultReadings where
  nonce := Vector.replicate 12 7
  key := Vector.replicate 32 key
  id := id
  now _ := now
  fault _ := none
  fileError := none
  torn := none
  network _ := vendingAnswer

end Patroclus
