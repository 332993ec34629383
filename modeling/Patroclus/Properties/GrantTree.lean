import Patroclus.Foundation.Run
import Patroclus.Db.Cascade
import Patroclus.Api.Server

/-!
# The tree of grants

Revoking a grant cascades: it marks the rows of the grant, lists the children that are not
revoked, and goes on with each of them. So a revocation keeps revocation handed down to
descendants, whatever the shape of the tree. Creating a grant does not look at its parent: a
grant that is created below a revoked one is not revoked, and nothing will revoke it.
-/

namespace Patroclus

open Foundation

inductive GrantCall where
  | create (agentId principalId : Uuid) (parentGrantId : Option Uuid) (scopes : List String)
      (constraints : Option Json) (expiresAt : Instant)
  | revoke (id : Uuid)

/-- The state after one call on the database. -/
def grantStep (p : Platform) (s : Serving) : GrantCall → Serving
  | .create agentId principalId parentGrantId scopes constraints expiresAt =>
      (Database.createGrant p agentId principalId parentGrantId scopes constraints expiresAt s).2
  | .revoke id => (Database.revokeGrant p id s).2

/-- Every grant that has a revoked ancestor, at any depth, is revoked. -/
def RevocationHandedDown (s : Serving) : Prop := grantTree.HandedDown s.app.db.grants

/-- The row that a creation inserts. -/
def newGrant (p : Platform) (s : Serving) (agentId principalId : Uuid)
    (parentGrantId : Option Uuid) (scopes : List String) (constraints : Option Json)
    (expiresAt : Instant) : GrantRow where
  id := s.tape.uuid s.tick
  agentId := agentId
  principalId := principalId
  parentGrantId := parentGrantId
  scopes := scopes
  constraints := constraints
  expiresAt := p.toRfc3339 expiresAt
  revokedAt := none
  createdAt := p.toRfc3339 (s.tape.now (s.tick + 1))

/-- No constraint of the table refuses the row. -/
def AdmitsGrant (p : Platform) (s : Serving) (row : GrantRow) : Prop :=
  s.app.db.grants.any (·.id == row.id) = false ∧
    (p.foreignKeys = true → s.app.db.GrantReferences row)

instance {p : Platform} {s : Serving} {row : GrantRow} : Decidable (AdmitsGrant p s row) := by
  unfold AdmitsGrant Db.GrantReferences
  infer_instance

/-- A grant that is created has no revoked parent. -/
def GrantCall.SparesRevoked (p : Platform) (s : Serving) : GrantCall → Prop
  | .create agentId principalId (some parent) scopes constraints expiresAt =>
      AdmitsGrant p s
        (newGrant p s agentId principalId (some parent) scopes constraints expiresAt) →
      ∀ row ∈ s.app.db.grants, row.id = parent → row.revokedAt = none
  | .create _ _ none _ _ _ => True
  | .revoke _ => True

instance {p : Platform} {s : Serving} (call : GrantCall) : Decidable (call.SparesRevoked p s) := by
  unfold GrantCall.SparesRevoked
  split <;> infer_instance

section

variable {p : Platform} {s finish : Serving} {id : Uuid}

/-! ## A revocation cascades -/

/-- A revocation reaches everything below the grant. -/
theorem revokeGrant_cascades (faults : ∀ n, s.tape.fault n = none)
    (distinct : (s.app.db.grants.map grantTree.id).Nodup) :
    grantTree.Cascades id s.app.db.grants (Database.revokeGrant p id s).2.app.db.grants := by
  cases hrun : Database.revokeGrant p id s with
  | mk outcome finish =>
      have hcascade := revokeGrant_cascadeRun distinct hrun
      obtain ⟨ids, rfl⟩ := hcascade.returns (.of_faultless faults)
      exact Descent.cascades_of_sweeps hcascade.revoked.advances hcascade.sweeps
        (.of_faultless faults)

/-! ## What a call does to the tree -/

/-- A creation adds one row, if no constraint refuses it. -/
theorem createGrant_grants {agentId principalId : Uuid} {parentGrantId : Option Uuid}
    {scopes : List String} {constraints : Option Json} {expiresAt : Instant} {row : GrantRow}
    (faults : ∀ n, s.tape.fault n = none)
    (new : newGrant p s agentId principalId parentGrantId scopes constraints expiresAt = row) :
    (Database.createGrant p agentId principalId parentGrantId scopes constraints expiresAt
      s).2.app.db.grants = s.app.db.grants ++ if AdmitsGrant p s row then [row] else [] := by
  subst new
  split
  · rename_i hadmits
    have hinsert := Db.insertGrant_eq_ok.mpr ⟨hadmits.1, hadmits.2, rfl⟩
    obtain ⟨id, finish, hrun, hgrants⟩ : (Database.createGrant p agentId principalId parentGrantId
        scopes constraints expiresAt).Returns (fun _ finish => finish.app.db.grants =
          s.app.db.grants ++ [newGrant p s agentId principalId parentGrantId scopes constraints
            expiresAt]) s :=
      .bind_run nowV7_run (.bind_run utcNow_run
        (.bind_run (sql_run (faults _) hinsert) (.pure rfl)))
    rw [hrun]
    exact hgrants
  · rename_i hrefuses
    rw [List.append_nil]
    cases hsql : sql (Db.insertGrant p.foreignKeys (newGrant p s agentId principalId parentGrantId
        scopes constraints expiresAt)) s.next.next with
    | mk outcome finish =>
        cases outcome with
        | ok _ =>
            obtain ⟨-, db, hinsert, -⟩ := sql_eq_ok.mp hsql
            obtain ⟨hfresh, hreferences, -⟩ := Db.insertGrant_eq_ok.mp hinsert
            exact absurd ⟨hfresh, hreferences⟩ hrefuses
        | error e =>
            have hrun : Database.createGrant p agentId principalId parentGrantId scopes constraints
                expiresAt s = (.error e, finish) := by
              rw [Database.createGrant, Action.bind_run_ok nowV7_run, Action.bind_run_ok utcNow_run]
              exact Action.bind_run_error hsql
            rw [hrun, sql_eq_error hsql]
            rfl

theorem grantStep_tape (s : Serving) (call : GrantCall) : (grantStep p s call).tape = s.tape := by
  cases call with
  | create agentId principalId parentGrantId scopes constraints expiresAt =>
      have hkeeps : (Database.createGrant p agentId principalId parentGrantId scopes constraints
          expiresAt).Keeps Serving.tape :=
        Database.keeps_createGrant (fun _ => rfl) fun _ _ => rfl
      exact hkeeps s
  | revoke id =>
      have hkeeps : (Database.revokeGrant p id).Keeps Serving.tape :=
        Database.keeps_revokeGrant (fun _ => rfl) fun _ _ => rfl
      exact hkeeps s

/-- No statement fails, and the ids of the grants are distinct. -/
def GrantsDistinct (s : Serving) : Prop :=
  (∀ n, s.tape.fault n = none) ∧ (s.app.db.grants.map grantTree.id).Nodup

theorem GrantsDistinct.step (h : GrantsDistinct s) (call : GrantCall) :
    GrantsDistinct (grantStep p s call) := by
  obtain ⟨hfaults, hdistinct⟩ := h
  refine ⟨fun n => grantStep_tape (p := p) s call ▸ hfaults n, ?_⟩
  cases call with
  | revoke id =>
      have hcascades : grantTree.Cascades id s.app.db.grants
          (grantStep p s (.revoke id)).app.db.grants := revokeGrant_cascades hfaults hdistinct
      exact hcascades.advances.map_id ▸ hdistinct
  | create agentId principalId parentGrantId scopes constraints expiresAt =>
      rw [grantStep, createGrant_grants hfaults rfl]
      split
      · rename_i hadmits
        rw [List.map_append, List.map_singleton]
        refine List.nodup_append.mpr ⟨hdistinct, List.nodup_singleton _, ?_⟩
        intro i hi j hj hsame
        obtain ⟨row, hrow, rfl⟩ := List.mem_map.mp hi
        rw [List.mem_singleton.mp hj] at hsame
        have hfresh := List.any_eq_false.mp hadmits.1 row hrow
        exact hfresh (beq_iff_eq.mpr hsame)
      · rw [List.append_nil]
        exact hdistinct

/-- An open row that is admitted keeps revocation handed down exactly if its parent is open. -/
theorem handedDown_admit_iff {row : GrantRow} (h : RevocationHandedDown s)
    (unrevoked : row.revokedAt = none) :
    grantTree.HandedDown (s.app.db.grants ++ if AdmitsGrant p s row then [row] else []) ↔
      (AdmitsGrant p s row → ∀ parent ∈ s.app.db.grants, row.parentGrantId = some parent.id →
        parent.revokedAt = none) := by
  have hopen : grantTree.marked row = false := Option.isSome_eq_false_iff.mpr
    (Option.isNone_iff_eq_none.mpr unrevoked)
  split
  · rename_i hadmits
    rw [Descent.handedDown_concat_iff hopen h]
    refine Iff.trans ?_ (forall_prop_of_true hadmits).symm
    refine forall₃_congr fun parent _ _ => ?_
    exact Option.isSome_eq_false_iff.trans Option.isNone_iff_eq_none
  · rename_i hrefuses
    rw [List.append_nil]
    exact iff_of_true h fun hadmits => absurd hadmits hrefuses

/-- A call keeps revocation handed down exactly if it creates no grant below a revoked one. -/
theorem RevocationHandedDown.step_iff (h : RevocationHandedDown s) (distinct : GrantsDistinct s)
    (call : GrantCall) :
    RevocationHandedDown (grantStep p s call) ↔ call.SparesRevoked p s := by
  cases call with
  | revoke id =>
      refine iff_of_true ?_ trivial
      exact (revokeGrant_cascades distinct.1 distinct.2).handedDown distinct.2 h
  | create agentId principalId parentGrantId scopes constraints expiresAt =>
      rw [RevocationHandedDown, grantStep, createGrant_grants distinct.1 rfl,
        handedDown_admit_iff h rfl]
      cases parentGrantId with
      | none => exact iff_of_true (fun _ parent _ hparent => by cases hparent) trivial
      | some id =>
          refine forall_congr' fun _ => forall₂_congr fun parent _ => ?_
          exact imp_congr_left (Option.some_inj.trans eq_comm)

end

/-! ## Runs -/

/-- Starting with no grants, revocation is handed down after every call exactly if no call
creates a grant below a revoked one. -/
theorem revocationHandedDown_iff {p : Platform} {s : Serving} {calls : List GrantCall}
    (faults : ∀ n, s.tape.fault n = none) (empty : s.app.db.grants = []) :
    (∀ done, done <+: calls → RevocationHandedDown (done.foldl (grantStep p) s)) ↔
      Along (grantStep p) (fun s call => call.SparesRevoked p s) s calls := by
  have hdistinct : GrantsDistinct s := ⟨faults, empty ▸ List.nodup_nil⟩
  have hstart : RevocationHandedDown s := by
    rw [RevocationHandedDown, Descent.handedDown_iff, empty]
    exact fun row hrow => absurd hrow List.not_mem_nil
  have henv : Along (grantStep p) (fun s _ => GrantsDistinct s) s calls :=
    .of_preserved (fun s call h => h.step call) hdistinct
  exact (Along.iff_invariant (fun s call h hs => hs.step_iff h call) henv hstart).symm

/-- The grants of an agent under a principal, on a server that knows both. -/
def grantCreation (parentGrantId : Option Uuid) : GrantCall :=
  .create ⟨300⟩ ⟨200⟩ parentGrantId ["read"] none (600 * 1000000000)

def grantServing : Serving := enrolledWorld.serving (.steady opening 400)

/-- A grant, its child and its grandchild are revoked together. -/
theorem revocationHandedDown_iff_nested : RevocationHandedDown
    ([grantCreation none, grantCreation (some ⟨400⟩), grantCreation (some ⟨403⟩),
      .revoke ⟨400⟩].foldl (grantStep delegationPlatform) grantServing) :=
  (revocationHandedDown_iff (fun _ => rfl) rfl).mpr (by decide +kernel) _ (List.prefix_refl _)

/-- Handed-down revocation, as a promise about every sequence of calls. -/
def RevocationAlwaysHandedDown : Prop :=
  ∀ (p : Platform) (s : Serving) (calls : List GrantCall), (∀ n, s.tape.fault n = none) →
    s.app.db.grants = [] → RevocationHandedDown (calls.foldl (grantStep p) s)

/-- A grant is created below one that has been revoked. -/
theorem not_revocationAlwaysHandedDown : ¬ RevocationAlwaysHandedDown := by
  intro h
  have hfinal := h delegationPlatform grantServing
    [grantCreation none, .revoke ⟨400⟩, grantCreation (some ⟨400⟩)] (fun _ => rfl) rfl
  rw [RevocationHandedDown] at hfinal
  exact absurd hfinal (by decide +kernel)

end Patroclus
