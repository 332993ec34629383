import Patroclus.Db.Statement

/-!
# The integrity of the database

`Db.Sound` is what the schema asks of the tables as a whole, together with what the
program itself never writes: a primary key names one row, the ids of the audit log
are 1, 2, 3 and so on, references lead to existing rows where SQLite enforces them,
and a request that is not pending has been resolved completely. Every statement of
the program keeps it, so every state of the database that a run reaches is sound.
-/

namespace Patroclus

open Foundation

/-- A pending request carries nothing of a resolution. -/
structure ApprovalRow.Pending (row : ApprovalRow) : Prop where
  status : row.status = .pending
  approverId : row.approverId = none
  approvalToken : row.approvalToken = none
  resolvedAt : row.resolvedAt = none

namespace Db

/-- The rows that the rows of the tables refer to exist. -/
structure References (db : Db) : Prop where
  grants : ∀ row ∈ db.grants,
    row.agentId ∈ db.agents.map (·.id) ∧ row.principalId ∈ db.principals.map (·.id)
  tokens : ∀ row ∈ db.tokens,
    row.agentId ∈ db.agents.map (·.id) ∧ ∀ id ∈ row.grantId, id ∈ db.grants.map (·.id)
  approvalRequests : ∀ row ∈ db.approvalRequests, row.agentId ∈ db.agents.map (·.id)

/-- The tables of a database that only this program has written. -/
structure Sound (foreignKeys : Bool) (db : Db) : Prop where
  agentIds : (db.agents.map (·.id)).Nodup
  principalIds : (db.principals.map (·.id)).Nodup
  resourceIds : (db.resources.map (·.id)).Nodup
  policyIds : (db.policies.map (·.id)).Nodup
  grantIds : (db.grants.map (·.id)).Nodup
  tokenIds : (db.tokens.map (·.id)).Nodup
  approvalIds : (db.approvalRequests.map (·.id)).Nodup
  auditIds : db.auditLog.map (·.id) = (List.range' 1 db.auditSequence).map Int.ofNat
  agentsActive : ∀ row ∈ db.agents, row.status = .active
  grantsAreRoots : ∀ row ∈ db.grants, row.parentGrantId = none
  approvals : ∀ row ∈ db.approvalRequests, row.Pending ∨ row.Resolved
  references : foreignKeys = true → db.References

theorem sound_empty (foreignKeys : Bool) : empty.Sound foreignKeys where
  agentIds := List.nodup_nil
  principalIds := List.nodup_nil
  resourceIds := List.nodup_nil
  policyIds := List.nodup_nil
  grantIds := List.nodup_nil
  tokenIds := List.nodup_nil
  approvalIds := List.nodup_nil
  auditIds := rfl
  agentsActive := nofun
  grantsAreRoots := nofun
  approvals := nofun
  references _ := ⟨nofun, nofun, nofun⟩

section

variable {foreignKeys : Bool} {db db' : Db}

theorem any_eq_true_iff_mem {ρ κ : Type} [DecidableEq κ] {key : ρ → κ} {rows : List ρ} {k : κ} :
    rows.any (key · == k) = true ↔ k ∈ rows.map key := by
  simp [List.any_eq_true, List.mem_map]

/-- A row under a new key. -/
theorem nodup_map_append {ρ κ : Type} [DecidableEq κ] {key : ρ → κ} {rows : List ρ} {row : ρ}
    (h : (rows.map key).Nodup) (fresh : rows.any (key · == key row) = false) :
    ((rows ++ [row]).map key).Nodup := by
  have hnew : key row ∉ rows.map key := by
    intro hmem
    rw [any_eq_true_iff_mem.mpr hmem] at fresh
    cases fresh
  rw [List.map_append, List.map_singleton, List.nodup_append]
  refine ⟨h, List.pairwise_singleton _ _, ?_⟩
  rintro k hk _ hrow rfl
  rw [List.mem_singleton.mp hrow] at hk
  exact hnew hk

theorem nodup_map_updateWhere {ρ κ : Type} {key : ρ → κ} {cond : ρ → Bool} {set : ρ → ρ}
    {rows : List ρ} (h : (rows.map key).Nodup) (same : ∀ row, key (set row) = key row) :
    ((updateWhere cond set rows).map key).Nodup := by
  rw [map_updateWhere same]
  exact h

/-- What holds of the old rows and of the new one. -/
theorem forall_mem_append {ρ : Type} {P : ρ → Prop} {rows : List ρ} {row : ρ}
    (h : ∀ old ∈ rows, P old) (hrow : P row) : ∀ any ∈ rows ++ [row], P any := by
  intro any hmem
  obtain hold | hnew := List.mem_append.mp hmem
  · exact h any hold
  · rw [List.mem_singleton.mp hnew]
    exact hrow

/-- What holds of the old rows and of what an update makes of those that it matches. -/
theorem forall_mem_updateWhere {ρ : Type} {P : ρ → Prop} {cond : ρ → Bool} {set : ρ → ρ}
    {rows : List ρ} (h : ∀ row ∈ rows, P row) (hset : ∀ row ∈ rows, cond row = true → P (set row)) :
    ∀ row ∈ updateWhere cond set rows, P row := by
  intro row hmem
  obtain ⟨old, hold, rfl⟩ := mem_updateWhere.mp hmem
  split
  · exact hset old hold ‹_›
  · exact h old hold

/-- References stay good while the tables that they lead to grow. -/
theorem References.mono (h : db.References) (evolves : db.Evolves db')
    (grants : db'.grants = db.grants) (tokens : db'.tokens = db.tokens)
    (approvals : db'.approvalRequests = db.approvalRequests) : db'.References where
  grants := by
    rw [grants]
    exact fun row hrow => (h.grants row hrow).imp evolves.agentIds evolves.principalIds
  tokens := by
    rw [tokens]
    exact fun row hrow => (h.tokens row hrow).imp evolves.agentIds
      fun hgrant id hid => evolves.grantIds (hgrant id hid)
  approvalRequests := by
    rw [approvals]
    exact fun row hrow => evolves.agentIds (h.approvalRequests row hrow)

theorem Sound.resolveApprovalRow {id approverId : Uuid} {status : ApprovalStatus}
    {reason token : Option String} {resolvedAt : String} {changes : Nat} (h : db.Sound foreignKeys)
    (hstatus : status = .approved ∧ token.isSome = true ∨ status = .denied ∧ token = none)
    (run : resolveApprovalRow id status approverId reason token resolvedAt db =
      .ok (changes, db')) : db'.Sound foreignKeys := by
  cases run
  exact { h with
    approvalIds := nodup_map_updateWhere h.approvalIds fun _ => rfl
    approvals := forall_mem_updateWhere h.approvals fun row _ _ => .inr ⟨hstatus, rfl, rfl⟩
    references := fun hkeys => { h.references hkeys with
      approvalRequests := forall_mem_updateWhere (h.references hkeys).approvalRequests
        fun row hrow _ => (h.references hkeys).approvalRequests row hrow } }

theorem Statement.sound (statement : Statement foreignKeys db db') (h : db.Sound foreignKeys) :
    db'.Sound foreignKeys := by
  have hevolves := statement.evolves
  cases statement with
  | insertAgent status run =>
      obtain ⟨hfresh, rfl⟩ := insertAgent_eq_ok.mp run
      exact { h with
        agentIds := nodup_map_append h.agentIds hfresh
        agentsActive := forall_mem_append h.agentsActive status
        references := fun hkeys => (h.references hkeys).mono hevolves rfl rfl rfl }
  | updateClientKeyHash run =>
      cases run
      exact { h with
        agentIds := nodup_map_updateWhere h.agentIds fun _ => rfl
        agentsActive := forall_mem_updateWhere h.agentsActive
          fun row hrow _ => h.agentsActive row hrow
        references := fun hkeys => (h.references hkeys).mono hevolves rfl rfl rfl }
  | insertPrincipal run =>
      obtain ⟨hfresh, rfl⟩ := insertPrincipal_eq_ok.mp run
      exact { h with
        principalIds := nodup_map_append h.principalIds hfresh
        references := fun hkeys => (h.references hkeys).mono hevolves rfl rfl rfl }
  | insertResource run =>
      obtain ⟨hfresh, rfl⟩ := insertResource_eq_ok.mp run
      exact { h with
        resourceIds := nodup_map_append h.resourceIds hfresh
        references := fun hkeys => (h.references hkeys).mono hevolves rfl rfl rfl }
  | insertPolicy status run =>
      obtain ⟨hfresh, rfl⟩ := insertPolicy_eq_ok.mp run
      exact { h with
        policyIds := nodup_map_append h.policyIds hfresh
        references := fun hkeys => (h.references hkeys).mono hevolves rfl rfl rfl }
  | deprecatePolicies run =>
      cases run
      exact { h with
        policyIds := nodup_map_updateWhere h.policyIds fun _ => rfl
        references := fun hkeys => (h.references hkeys).mono hevolves rfl rfl rfl }
  | insertGrant parent revokedAt run =>
      obtain ⟨hfresh, hreferences, rfl⟩ := insertGrant_eq_ok.mp run
      refine { h with
        grantIds := nodup_map_append h.grantIds hfresh
        grantsAreRoots := forall_mem_append h.grantsAreRoots parent
        references := fun hkeys => { h.references hkeys with
          grants := forall_mem_append (h.references hkeys).grants ?_
          tokens := fun row hrow => ((h.references hkeys).tokens row hrow).imp_right
            fun hgrant id hid => hevolves.grantIds (hgrant id hid) } }
      obtain ⟨hagent, hprincipal, -⟩ := hreferences hkeys
      exact ⟨any_eq_true_iff_mem.mp hagent, any_eq_true_iff_mem.mp hprincipal⟩
  | revokeGrant run =>
      cases run
      exact { h with
        grantIds := nodup_map_updateWhere h.grantIds fun _ => rfl
        grantsAreRoots := forall_mem_updateWhere h.grantsAreRoots
          fun row hrow _ => h.grantsAreRoots row hrow
        references := fun hkeys => { h.references hkeys with
          grants := forall_mem_updateWhere (h.references hkeys).grants
            fun row hrow _ => (h.references hkeys).grants row hrow
          tokens := fun row hrow => ((h.references hkeys).tokens row hrow).imp_right
            fun hgrant id hid => hevolves.grantIds (hgrant id hid) } }
  | insertToken revoked run =>
      obtain ⟨hfresh, hreferences, rfl⟩ := insertToken_eq_ok.mp run
      refine { h with
        tokenIds := nodup_map_append h.tokenIds hfresh
        references := fun hkeys => { h.references hkeys with
          tokens := forall_mem_append (h.references hkeys).tokens ?_ } }
      obtain ⟨hagent, hgrant⟩ := hreferences hkeys
      refine ⟨any_eq_true_iff_mem.mp hagent, fun id hid => any_eq_true_iff_mem.mp ?_⟩
      rw [Option.mem_def.mp hid] at hgrant
      exact hgrant
  | revokeToken run | revokeAgentTokens run =>
      cases run
      exact { h with
        tokenIds := nodup_map_updateWhere h.tokenIds fun _ => rfl
        references := fun hkeys => { h.references hkeys with
          tokens := forall_mem_updateWhere (h.references hkeys).tokens
            fun row hrow _ => (h.references hkeys).tokens row hrow } }
  | insertApproval status approverId approvalToken resolvedAt run =>
      obtain ⟨hfresh, hagent, rfl⟩ := insertApprovalRequest_eq_ok.mp run
      exact { h with
        approvalIds := nodup_map_append h.approvalIds hfresh
        approvals := forall_mem_append h.approvals
          (.inl ⟨status, approverId, approvalToken, resolvedAt⟩)
        references := fun hkeys => { h.references hkeys with
          approvalRequests := forall_mem_append (h.references hkeys).approvalRequests
            (any_eq_true_iff_mem.mp (hagent hkeys)) } }
  | approve run => exact h.resolveApprovalRow (.inl ⟨rfl, rfl⟩) run
  | deny run => exact h.resolveApprovalRow (.inr ⟨rfl, rfl⟩) run
  | insertAudit run =>
      cases run
      refine { h with
        auditIds := ?_
        references := fun hkeys => (h.references hkeys).mono hevolves rfl rfl rfl }
      rw [List.map_append, h.auditIds, List.range'_concat, List.map_append]
      simp [add_comm]

end

end Db

end Patroclus
