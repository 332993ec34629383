import Patroclus.Api.Vault
import Patroclus.Foundation.Run

/-!
# Recovery of stored credentials

A credential is sealed under the key of the running vault, which is the key that the
process has found in the key file. The file is overwritten whenever a key is generated,
and no earlier key is kept. So the next start may find another key than the one that the
stored credentials were sealed under, and then none of them opens.
-/

namespace Patroclus

open Foundation

namespace Deployment

/-- Every credential that was stored is there and opens to what was stored, and where a
credential is asked for, the latest one for its principal and provider is recovered. -/
structure Recoverable (p : Platform) (aead : Aead) (d : Deployment) : Prop where
  opens : ∀ e ∈ d.stored, e.row ∈ d.credentials ∧ ∃ vault, d.vault = some vault ∧
    vault.decrypt aead e.row.encryptedToken e.row.nonce = .ok e.refreshToken
  vends : ∀ e ∈ d.stored, ∀ r : VaultReadings, r.fault 0 = none → r.fault 1 = none →
    ∃ latest ∈ d.stored,
      latestCredential e.row.principalId e.row.provider d.credentials = some latest.row ∧
      d.refreshToken p aead e.row.principalId e.row.provider r = .ok latest.refreshToken

/-- A start finds in the key file the key that each stored credential was sealed under,
and the id that is drawn for a credential is new. -/
def KeepsKey (p : Platform) (d : Deployment) : DeploymentInput → Prop
  | .server ⟨.restart, arrival, tape⟩ fileError =>
      (d.world.step p ⟨.restart, arrival, tape⟩).up = true →
        ∀ e ∈ d.stored, d.loadVault p fileError = some e.vault
  | .vault (.store _) r => ∀ row ∈ d.credentials, row.id ≠ r.id
  | _ => True

instance (p : Platform) (d : Deployment) : ∀ input, Decidable (d.KeepsKey p input)
  | .server ⟨.restart, _, _⟩ _ => inferInstanceAs (Decidable (_ → _))
  | .server ⟨.call _, _, _⟩ _ => inferInstanceAs (Decidable True)
  | .vault (.store _) r => inferInstanceAs (Decidable (∀ row ∈ d.credentials, row.id ≠ r.id))
  | .vault .list _ | .vault (.vend _) _ | .vault .generateKey _ => inferInstanceAs (Decidable True)

/-- The three places agree: the table, the running vault and what was stored. -/
structure InCustody (aead : Aead) (d : Deployment) : Prop where
  opened : ∀ e ∈ d.stored,
    e.vault.decrypt aead e.row.encryptedToken e.row.nonce = .ok e.refreshToken
  recorded : ∀ e ∈ d.stored, e.row ∈ d.credentials
  answered : ∀ row ∈ d.credentials, ∃ e ∈ d.stored, e.row = row
  running : d.world.up = true → ∀ e ∈ d.stored, d.vault = some e.vault

section

variable {p : Platform} {aead : Aead} {d after : Deployment} {input : DeploymentInput}

theorem inCustody_initial (path : String) (keyFile : Option String) :
    (initialDeployment path keyFile).InCustody aead where
  opened := nofun
  recorded := nofun
  answered := nofun
  running := nofun

theorem InCustody.recoverable (h : d.InCustody aead) (up : d.world.up = true) :
    d.Recoverable p aead := by
  have hopens : ∀ e ∈ d.stored, ∃ vault, d.vault = some vault ∧
      vault.decrypt aead e.row.encryptedToken e.row.nonce = .ok e.refreshToken :=
    fun e he => ⟨e.vault, h.running up e he, h.opened e he⟩
  refine ⟨fun e he => ⟨h.recorded e he, hopens e he⟩, fun e he r prepared read => ?_⟩
  obtain ⟨row, hlatest⟩ := exists_latestCredential (h.recorded e he)
  obtain ⟨latest, hstored, rfl⟩ := h.answered row (latestCredential_spec hlatest).1
  obtain ⟨vault, hvault, hdecrypt⟩ := hopens latest hstored
  exact ⟨latest, hstored, hlatest,
    refreshToken_eq_ok.mpr ⟨prepared, read, vault, latest.row, hvault, hlatest, hdecrypt⟩⟩

theorem InCustody.effect (h : d.InCustody aead) (keeps : d.KeepsKey p input)
    (effect : d.Effect p aead input after) : after.InCustody aead := by
  cases effect with
  | kept credentials stored vault up =>
      refine ⟨?_, ?_, ?_, ?_⟩
      · rw [stored]
        exact h.opened
      · rw [stored, credentials]
        exact h.recorded
      · rw [stored, credentials]
        exact h.answered
      · rw [stored, vault, up]
        exact h.running
  | started =>
      refine ⟨h.opened, h.recorded, h.answered, fun up e he => ?_⟩
      show (if _ then _ else _) = some e.vault
      rw [if_pos up]
      exact keeps up e he
  | @sealed req r vault encrypted nonce response answered up running encrypts =>
      have hkept : ∀ row ∈ d.credentials, row ∈ d.credentials.filter (·.id != r.id) :=
        fun row hrow => List.mem_filter.mpr ⟨hrow, bne_iff_ne.mpr (keeps row hrow)⟩
      refine ⟨fun e he => ?_, fun e he => ?_, fun row hrow => ?_, fun _ e he => ?_⟩
      · obtain hold | hnew := List.mem_append.mp he
        · exact h.opened e hold
        · rw [List.mem_singleton.mp hnew]
          exact Vault.decrypt_encrypt aead encrypts
      · obtain hold | hnew := List.mem_append.mp he
        · exact List.mem_append_left _ (hkept _ (h.recorded e hold))
        · rw [List.mem_singleton.mp hnew]
          exact List.mem_append_right _ List.mem_cons_self
      · obtain hold | hnew := List.mem_append.mp hrow
        · obtain ⟨e, he, rfl⟩ := h.answered row (List.mem_filter.mp hold).1
          exact ⟨e, List.mem_append_left _ he, rfl⟩
        · rw [List.mem_singleton.mp hnew]
          exact ⟨_, List.mem_append_right _ List.mem_cons_self, rfl⟩
      · obtain hold | hnew := List.mem_append.mp he
        · exact h.running up e hold
        · rw [List.mem_singleton.mp hnew]
          exact running

/-- In a run whose starts find the key of what is stored, every credential whose storing
call has answered stays recoverable. -/
theorem recoverable_of_keepsKey {path : String} {keyFile : Option String}
    {inputs done : List DeploymentInput}
    (keeps : Along (step p aead) (KeepsKey p) (initialDeployment path keyFile) inputs)
    (hdone : done <+: inputs)
    (up : ((initialDeployment path keyFile).run p aead done).world.up = true) :
    ((initialDeployment path keyFile).run p aead done).Recoverable p aead := by
  have hcustody : ((initialDeployment path keyFile).run p aead done).InCustody aead :=
    Along.invariant (fun d input h hkeeps => h.effect hkeeps (step_effect d input))
      (inCustody_initial path keyFile) (keeps.of_prefix hdone)
  exact hcustody.recoverable up

end

end Deployment

/-! ## A key that is replaced -/

/-- A process starts and a key is generated; the next process loads it, and a credential
of a principal is stored. -/
def storingRun : List DeploymentInput := [
  .server (.steady .restart 0 100) none,
  .vault .generateKey (.steady 0 1 ⟨0⟩),
  .server (.steady .restart 0 110) none,
  .server (.steady (.call (.createPrincipal ⟨"alice", "idp", "alice@corp", "Alice"⟩)) 0 200) none,
  .vault (.store ⟨⟨200⟩, "github", "ghp_secret", ["repo"], none⟩) (.steady 0 1 ⟨700⟩)]

/-- A deployment in which nothing has happened, after a run. -/
def Deployment.afterwards (inputs : List DeploymentInput) : Deployment :=
  (initialDeployment "keys/vault.key" none).run Platform.unsigned .tagged inputs

/-- After another start the credential is still there. -/
theorem recoverable_of_keepsKey_restarted :
    let inputs := storingRun ++ [.server (.steady .restart 0 120) none]
    (Deployment.afterwards inputs).stored ≠ [] ∧
      (Deployment.afterwards inputs).Recoverable Platform.unsigned .tagged :=
  ⟨by decide +kernel, Deployment.recoverable_of_keepsKey (by decide +kernel)
    (List.prefix_refl (storingRun ++ [.server (.steady .restart 0 120) none]))
    (by decide +kernel)⟩

/-- A credential is stored, a key is generated and the process starts again: the server is
up, and the credential is lost. -/
theorem not_recoverable :
    let inputs := storingRun ++ [.vault .generateKey (.steady 0 2 ⟨0⟩),
      .server (.steady .restart 0 120) none]
    (Deployment.afterwards inputs).world.up = true ∧
      ¬ (Deployment.afterwards inputs).Recoverable Platform.unsigned .tagged := by
  intro inputs
  refine ⟨by decide +kernel, fun h => ?_⟩
  have hnew : (Deployment.afterwards inputs).vault = some (Vault.new Platform.unsigned
      (utf8 (Vault.encodedKey (Vector.replicate 32 2)))) := by decide +kernel
  have hclosed : ∀ e ∈ (Deployment.afterwards inputs).stored,
      (Vault.new Platform.unsigned (utf8 (Vault.encodedKey (Vector.replicate 32 2)))).decrypt
        .tagged e.row.encryptedToken e.row.nonce ≠ .ok e.refreshToken := by decide +kernel
  have hstored : (Deployment.afterwards inputs).stored ≠ [] := by decide +kernel
  obtain ⟨e, he⟩ := List.exists_mem_of_ne_nil _ hstored
  obtain ⟨-, vault, hvault, hdecrypt⟩ := h.opens e he
  rw [hnew] at hvault
  obtain rfl := Option.some.inj hvault
  exact hclosed e he hdecrypt

end Patroclus
