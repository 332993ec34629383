import Patroclus.Api.Vault
import Patroclus.Foundation.Latest

/-!
# The credential table as a map

Every call of `store_vault_credential` adds a row under a new id, and `get_vault_credential`
takes the row of a principal and a provider whose `updated_at` comes last as text. With a clock
that advances, and years that are printed without a sign, the text that comes last is that of
the last call, so the table is the map from pairs to what was stored for them last.
-/

namespace Patroclus

open Foundation

/-- What a credential keeps: the ciphertext with its nonce and key, and the scopes. -/
structure SealedCredential where
  encryptedToken : List UInt8
  nonce : List UInt8
  encryptionKeyId : String
  scopes : List String
deriving DecidableEq, Repr

def CredentialWrite.sealed (write : CredentialWrite) : SealedCredential :=
  ⟨write.encryptedToken, write.nonce, write.encryptionKeyId, write.scopes⟩

def VaultCredentialRecord.sealed (record : VaultCredentialRecord) : SealedCredential :=
  ⟨record.encryptedToken, record.nonce, record.encryptionKeyId, record.scopes⟩

/-- What a call writes, under the pair of its principal and its provider. -/
def CredentialWrite.entry (write : CredentialWrite) : (Uuid × String) × SealedCredential :=
  ((write.principalId, write.provider), write.sealed)

section

variable (p : Platform)

/-- One call, with the calls so far that have been answered with success. -/
def storeNext (done : List CredentialWrite × List VaultCredentialRow) (write : CredentialWrite) :
    List CredentialWrite × List VaultCredentialRow :=
  match Database.storeVaultCredential p write done.2 with
  | (.ok _, rows) => (done.1 ++ [write], rows)
  | (.error _, rows) => (done.1, rows)

/-- The successful calls of a sequence, and the table after it. -/
def storeAll (writes : List CredentialWrite) : List CredentialWrite × List VaultCredentialRow :=
  writes.foldl (storeNext p) ([], [])

/-- No statement of the call fails: its principal is there if the database asks for it. -/
def CredentialWrite.succeeds (write : CredentialWrite) : Bool :=
  write.fault.isNone && (!p.foreignKeys || write.principals.any (·.id == write.principalId))

end

section

variable {p : Platform} {write : CredentialWrite} {writes : List CredentialWrite}
  {rows : List VaultCredentialRow} {principalId : Uuid} {provider : String} {r : VaultReadings}

/-! ## One call -/

theorem storeVaultCredential_of_succeeds (h : write.succeeds p = true) :
    Database.storeVaultCredential p write rows =
      (.ok write.id, rows.filter (·.id != write.id) ++ [write.row p]) := by
  rw [CredentialWrite.succeeds, Bool.and_eq_true, Option.isNone_iff_eq_none] at h
  obtain ⟨hfault, hprincipal⟩ := h
  have hreference : Db.checkReference p.foreignKeys
      (write.principals.any (·.id == write.principalId)) = .ok () := by
    rw [Db.checkReference_eq_ok]
    intro henforced
    rwa [henforced, Bool.not_true, Bool.false_or] at hprincipal
  have hinsert : insertOrReplaceCredential p.foreignKeys write.principals (write.row p) rows =
      .ok (rows.filter (·.id != write.id) ++ [write.row p]) :=
    Outcome.bind_eq_ok.mpr ⟨(), hreference, rfl⟩
  rw [Database.storeVaultCredential, hfault, vaultStatement, hinsert]
  rfl

theorem storeVaultCredential_of_fails (h : write.succeeds p = false) :
    ∃ e, Database.storeVaultCredential p write rows = (.error e, rows) := by
  cases hfault : write.fault with
  | some message => exact ⟨_, by rw [Database.storeVaultCredential, hfault, vaultStatement]⟩
  | none =>
      have hreference : Db.checkReference p.foreignKeys
          (write.principals.any (·.id == write.principalId)) =
            .error "FOREIGN KEY constraint failed" := by
        rw [Db.checkReference, if_pos]
        simpa [CredentialWrite.succeeds, hfault] using h
      have hinsert : insertOrReplaceCredential p.foreignKeys write.principals (write.row p) rows =
          .error "FOREIGN KEY constraint failed" := by
        rw [insertOrReplaceCredential]
        exact congrArg (· >>= _) hreference
      exact ⟨_, by rw [Database.storeVaultCredential, hfault, vaultStatement, hinsert]; rfl⟩

/-! ## The table after a sequence of calls -/

/-- The table holds the rows of the successful calls, in their order. -/
theorem storeAll_eq (distinct : (writes.map (·.id)).Nodup) :
    storeAll p writes = (writes.filter (·.succeeds p),
      (writes.filter (·.succeeds p)).map (·.row p)) := by
  induction writes using List.reverseRecOn with
  | nil => rfl
  | append_singleton writes write ih =>
      rw [List.map_append, List.nodup_append] at distinct
      obtain ⟨hdistinct, -, hfresh⟩ := distinct
      rw [storeAll, List.foldl_append, ← storeAll, ih hdistinct, List.foldl_cons, List.foldl_nil,
        storeNext, List.filter_append]
      cases hsucceeds : write.succeeds p with
      | true =>
          have hkept : ((writes.filter (·.succeeds p)).map (·.row p)).filter
              (·.id != write.id) = (writes.filter (·.succeeds p)).map (·.row p) := by
            rw [List.filter_eq_self]
            intro row hrow
            obtain ⟨earlier, hearlier, rfl⟩ := List.mem_map.mp hrow
            rw [bne_iff_ne]
            exact hfresh _ (List.mem_map_of_mem (List.mem_filter.mp hearlier).1) _
              (List.mem_singleton_self _)
          rw [storeVaultCredential_of_succeeds hsucceeds, hkept, List.filter_singleton, hsucceeds,
            List.map_append]
          rfl
      | false =>
          obtain ⟨e, he⟩ : ∃ e, Database.storeVaultCredential p write
              ((writes.filter (·.succeeds p)).map (·.row p)) =
                (.error e, (writes.filter (·.succeeds p)).map (·.row p)) :=
            storeVaultCredential_of_fails hsucceeds
          rw [he, List.filter_singleton, hsucceeds, cond_false, List.append_nil]

/-- What is found for a pair is what was stored for it last. -/
theorem latestCredential_storeAll (dates : p.UsesChrono)
    (distinct : (writes.map (·.id)).Nodup)
    (clock : writes.Pairwise fun write write' => write.now < write'.now)
    (common : ∀ write ∈ writes, write.now.Common) :
    (latestCredential principalId provider (storeAll p writes).2).map
      (fun row => (row.toRecord p r.now).sealed) =
        latest (principalId, provider) ((storeAll p writes).1.map CredentialWrite.entry) := by
  rw [storeAll_eq distinct]
  show (latestCredential principalId provider ((writes.filter (·.succeeds p)).map (·.row p))).map
    _ = latest _ ((writes.filter (·.succeeds p)).map CredentialWrite.entry)
  have hincreasing : ((writes.filter (·.succeeds p)).map (·.row p)).Pairwise
      fun row row' => row.updatedAt < row'.updatedAt := by
    rw [List.pairwise_map]
    refine ((clock.filter _).imp_of_mem ?_)
    intro write write' hwrite hwrite' hlt
    have hcommon := common write (List.mem_filter.mp hwrite).1
    have hcommon' := common write' (List.mem_filter.mp hwrite').1
    show p.toRfc3339 write.now < p.toRfc3339 write'.now
    rw [dates.prints, dates.prints]
    exact (Instant.rfc3339_lt_iff_lt hcommon hcommon').mpr hlt
  rw [latestCredential, latestBy_of_increasing (hincreasing.filter _), latest_eq_getLast?,
    List.filter_map, List.filter_map, List.getLast?_map, List.getLast?_map, Option.map_map,
    Option.map_map]
  have hsame : ((fun row : VaultCredentialRow =>
      row.principalId == principalId && row.provider == provider) ∘ fun write => write.row p) =
        (fun entry => decide (entry.1 = (principalId, provider))) ∘ CredentialWrite.entry := by
    funext write
    rw [Bool.eq_iff_iff]
    simp [CredentialWrite.row, CredentialWrite.entry]
  rw [hsame]
  rfl

/-- Of the calls the table keeps what is written last under each pair: a lookup answers with
it, and whatever is stored for other pairs leaves the answer as it is. The endpoint that
stores a credential makes one such call (`Deployment.storeCredential_write`). -/
theorem getVaultCredential_storeAll (dates : p.UsesChrono) (distinct : (writes.map (·.id)).Nodup)
    (clock : writes.Pairwise fun write write' => write.now < write'.now)
    (common : ∀ write ∈ writes, write.now.Common) :
    (∀ found, Database.getVaultCredential p principalId provider (storeAll p writes).2 r =
      .ok found → found.map (·.sealed) =
        latest (principalId, provider) ((storeAll p writes).1.map CredentialWrite.entry)) ∧
    (r.fault 0 = none → r.fault 1 = none → ∃ found,
      Database.getVaultCredential p principalId provider (storeAll p writes).2 r = .ok found) ∧
    ∀ found found', Database.getVaultCredential p principalId provider (storeAll p writes).2 r =
      .ok found → Database.getVaultCredential p principalId provider (storeAll p (writes.filter
        fun write => write.entry.1 = (principalId, provider))).2 r = .ok found' →
          found.map (·.sealed) = found'.map (·.sealed) := by
  have hread {writes : List CredentialWrite} (distinct : (writes.map (·.id)).Nodup)
      (clock : writes.Pairwise fun write write' => write.now < write'.now)
      (common : ∀ write ∈ writes, write.now.Common) {found : Option VaultCredentialRecord}
      (run : Database.getVaultCredential p principalId provider (storeAll p writes).2 r =
        .ok found) : found.map (·.sealed) =
          latest (principalId, provider) ((storeAll p writes).1.map CredentialWrite.entry) := by
    obtain ⟨-, -, rfl⟩ := Database.getVaultCredential_eq_ok.mp run
    rw [Option.map_map]
    exact latestCredential_storeAll dates distinct clock common
  refine ⟨fun found run => hread distinct clock common run, fun hprepare hquery =>
    ⟨_, Database.getVaultCredential_eq_ok.mpr ⟨hprepare, hquery, rfl⟩⟩, ?_⟩
  intro found found' run run'
  have hdistinct := distinct.sublist ((List.filter_sublist
    (p := fun write : CredentialWrite => write.entry.1 = (principalId, provider))).map (·.id))
  rw [hread distinct clock common run, hread hdistinct (clock.filter _)
    (fun write hwrite => common write (List.mem_filter.mp hwrite).1) run', storeAll_eq distinct,
    storeAll_eq hdistinct]
  show latest _ ((writes.filter (·.succeeds p)).map CredentialWrite.entry) =
    latest _ (((writes.filter fun write => write.entry.1 = (principalId, provider)).filter
      (·.succeeds p)).map CredentialWrite.entry)
  have hkeep : decide ((principalId, provider) = (principalId, provider)) = true :=
    decide_eq_true rfl
  rw [List.filter_comm]
  rw [← @latest_filter _ _ _ _ _ (fun key => decide (key = (principalId, provider))) hkeep,
    List.filter_map]
  rfl

end

/-- Two tokens for one provider, half a second apart, and one for another. -/
def credentialRotation : List CredentialWrite :=
  let alice : PrincipalRow := ⟨⟨200⟩, "alice", "idp", "alice@corp", "Alice", ""⟩
  [⟨⟨200⟩, "github", [1], [], "default", ["repo"], none, ⟨700⟩, 0, [alice], none⟩,
    ⟨⟨200⟩, "github", [2], [], "default", ["gist"], none, ⟨701⟩, 500000000, [alice], none⟩,
    ⟨⟨200⟩, "slack", [3], [], "default", ["chat"], none, ⟨702⟩, 1000000000, [alice], none⟩]

theorem getVaultCredential_storeAll_rotation : ∃ found,
    Database.getVaultCredential Platform.chrono ⟨200⟩ "github"
      (storeAll Platform.chrono credentialRotation).2 (.steady 2000000000 0 ⟨0⟩) = .ok found ∧
    found.map (·.sealed) = some ⟨[2], [], "default", ["gist"]⟩ := by
  have hclock : credentialRotation.Pairwise fun write write' => write.now < write'.now := by
    simp [credentialRotation]
  have hdates : ∀ write ∈ credentialRotation, write.now.Common := by decide
  obtain ⟨hlast, hanswer, -⟩ :=
    @getVaultCredential_storeAll Platform.chrono credentialRotation ⟨200⟩ "github"
      (.steady 2000000000 0 ⟨0⟩) Platform.chrono_usesChrono (by decide) hclock hdates
  obtain ⟨found, hfound⟩ := hanswer rfl rfl
  exact ⟨found, hfound, hlast found hfound⟩

end Patroclus
