import Patroclus.Db.Tables
import Patroclus.Foundation.Growth

/-!
# The statements of the program

`Db.Statement` lists every write that the program ever asks the database for, with
what the program fixes about the values that it writes. A failed statement changes
nothing and is not listed. `Db.Evolves` is what any number of statements can do to
the tables: rows are added behind the old ones, and an old row changes only in the
few columns, and only in the direction, that its table allows.
-/

namespace Patroclus

open Foundation

namespace Db

/-- A write that the program has asked for and the database has accepted. -/
inductive Statement (foreignKeys : Bool) (db : Db) : Db → Prop where
  | insertAgent {row : AgentRow} {db' : Db} (status : row.status = .active)
      (run : insertAgent row db = .ok ((), db')) : Statement foreignKeys db db'
  | updateClientKeyHash {agentId : Uuid} {keyHash updatedAt : String} {changes : Nat} {db' : Db}
      (run : updateClientKeyHash agentId keyHash updatedAt db = .ok (changes, db')) :
      Statement foreignKeys db db'
  | insertPrincipal {row : PrincipalRow} {db' : Db}
      (run : insertPrincipal row db = .ok ((), db')) : Statement foreignKeys db db'
  | insertResource {row : ResourceRow} {db' : Db}
      (run : insertResource row db = .ok ((), db')) : Statement foreignKeys db db'
  | insertPolicy {row : PolicyRow} {db' : Db} (status : row.status = .active)
      (run : insertPolicy row db = .ok ((), db')) : Statement foreignKeys db db'
  | deprecatePolicies {updatedAt : String} {db' : Db}
      (run : deprecatePolicies updatedAt db = .ok ((), db')) : Statement foreignKeys db db'
  | insertGrant {row : GrantRow} {db' : Db} (parent : row.parentGrantId = none)
      (revokedAt : row.revokedAt = none)
      (run : insertGrant foreignKeys row db = .ok ((), db')) : Statement foreignKeys db db'
  | revokeGrant {id : Uuid} {revokedAt : String} {db' : Db}
      (run : revokeGrantRow id revokedAt db = .ok ((), db')) : Statement foreignKeys db db'
  | insertToken {row : TokenRow} {db' : Db} (revoked : row.revoked = false)
      (run : insertToken foreignKeys row db = .ok ((), db')) : Statement foreignKeys db db'
  | revokeToken {jti : String} {db' : Db}
      (run : revokeTokenRow jti db = .ok ((), db')) : Statement foreignKeys db db'
  | revokeAgentTokens {agentId : Uuid} {changes : Nat} {db' : Db}
      (run : revokeAgentTokenRows agentId db = .ok (changes, db')) : Statement foreignKeys db db'
  | insertApproval {row : ApprovalRow} {db' : Db} (status : row.status = .pending)
      (approverId : row.approverId = none) (approvalToken : row.approvalToken = none)
      (resolvedAt : row.resolvedAt = none)
      (run : insertApprovalRequest foreignKeys row db = .ok ((), db')) :
      Statement foreignKeys db db'
  | approve {id approverId : Uuid} {reason : Option String} {token resolvedAt : String}
      {changes : Nat} {db' : Db} (run : resolveApprovalRow id .approved approverId reason
        (some token) resolvedAt db = .ok (changes, db')) : Statement foreignKeys db db'
  | deny {id approverId : Uuid} {reason : Option String} {resolvedAt : String}
      {changes : Nat} {db' : Db} (run : resolveApprovalRow id .denied approverId reason
        none resolvedAt db = .ok (changes, db')) : Statement foreignKeys db db'
  | insertAudit {row : AuditRow} {id : Int} {db' : Db}
      (run : insertAudit row db = .ok (id, db')) : Statement foreignKeys db db'

end Db

/-! ## Versions of a row -/

/-- Only the client key of an agent is replaced. -/
def AgentRow.Updates (row row' : AgentRow) : Prop :=
  row' = { row with clientKeyHash := row'.clientKeyHash, updatedAt := row'.updatedAt } ∧
    (row.clientKeyHash.isSome = true → row'.clientKeyHash.isSome = true)

/-- A policy is deprecated once. -/
def PolicyRow.Updates (row row' : PolicyRow) : Prop :=
  row' = row ∨ row.status = .active ∧
    row' = { row with status := .deprecated, updatedAt := row'.updatedAt }

/-- A grant is revoked once, and keeps the date of it. -/
def GrantRow.Updates (row row' : GrantRow) : Prop :=
  row' = row ∨ row.revokedAt = none ∧ row'.revokedAt.isSome = true ∧
    row' = { row with revokedAt := row'.revokedAt }

/-- A token is revoked. -/
def TokenRow.Updates (row row' : TokenRow) : Prop := row' = row ∨ row' = Db.revokedRow row

/-- What a resolved approval request has: its approver, the date, and a token exactly if it
was approved. -/
structure ApprovalRow.Resolved (row : ApprovalRow) : Prop where
  status : row.status = .approved ∧ row.approvalToken.isSome = true ∨
    row.status = .denied ∧ row.approvalToken = none
  approverId : row.approverId.isSome = true
  resolvedAt : row.resolvedAt.isSome = true

/-- An approval request is resolved once. -/
def ApprovalRow.Updates (row row' : ApprovalRow) : Prop :=
  row' = row ∨ row.status = .pending ∧ row'.Resolved ∧
    row' = { row with
      status := row'.status
      approverId := row'.approverId
      reason := row'.reason
      approvalToken := row'.approvalToken
      resolvedAt := row'.resolvedAt }

theorem AgentRow.Updates.refl (row : AgentRow) : row.Updates row := ⟨rfl, fun h => h⟩

theorem AgentRow.Updates.trans {a b c : AgentRow} (h : a.Updates b) (h' : b.Updates c) :
    a.Updates c := by
  refine ⟨?_, h'.2 ∘ h.2⟩
  rw [h'.1, h.1]

theorem PolicyRow.Updates.refl (row : PolicyRow) : row.Updates row := .inl rfl

theorem PolicyRow.Updates.trans {a b c : PolicyRow} (h : a.Updates b) (h' : b.Updates c) :
    a.Updates c := by
  obtain rfl | ⟨hactive, hb⟩ := h
  · exact h'
  · obtain rfl | ⟨hstill, -⟩ := h'
    · exact .inr ⟨hactive, hb⟩
    · rw [hb] at hstill
      cases hstill

theorem GrantRow.Updates.refl (row : GrantRow) : row.Updates row := .inl rfl

theorem GrantRow.Updates.trans {a b c : GrantRow} (h : a.Updates b) (h' : b.Updates c) :
    a.Updates c := by
  obtain rfl | ⟨hlive, hrevoked, hb⟩ := h
  · exact h'
  · obtain rfl | ⟨hstill, -⟩ := h'
    · exact .inr ⟨hlive, hrevoked, hb⟩
    · rw [hstill] at hrevoked
      cases hrevoked

theorem TokenRow.Updates.refl (row : TokenRow) : row.Updates row := .inl rfl

theorem TokenRow.Updates.trans {a b c : TokenRow} (h : a.Updates b) (h' : b.Updates c) :
    a.Updates c := by
  obtain rfl | rfl := h
  · exact h'
  · obtain rfl | rfl := h' <;> exact .inr rfl

theorem ApprovalRow.Updates.refl (row : ApprovalRow) : row.Updates row := .inl rfl

theorem ApprovalRow.Resolved.ne_pending {row : ApprovalRow} (h : row.Resolved) :
    row.status ≠ .pending := by
  obtain ⟨hstatus, -⟩ | ⟨hstatus, -⟩ := h.status <;> simp [hstatus]

theorem ApprovalRow.Updates.trans {a b c : ApprovalRow} (h : a.Updates b) (h' : b.Updates c) :
    a.Updates c := by
  obtain rfl | ⟨hpending, hresolved, hb⟩ := h
  · exact h'
  · obtain rfl | ⟨hstill, -⟩ := h'
    · exact .inr ⟨hpending, hresolved, hb⟩
    · exact absurd hstill hresolved.ne_pending

theorem AgentRow.Updates.id_eq {a b : AgentRow} (h : a.Updates b) : a.id = b.id := by
  rw [h.1]

theorem GrantRow.Updates.id_eq {a b : GrantRow} (h : a.Updates b) : a.id = b.id := by
  obtain rfl | ⟨-, -, hb⟩ := h
  · rfl
  · rw [hb]

theorem TokenRow.Updates.id_eq {a b : TokenRow} (h : a.Updates b) : a.id = b.id := by
  obtain rfl | rfl := h <;> rfl

/-! ## Versions of the database -/

namespace Db

/-- What any number of statements can do to the tables. -/
structure Evolves (db db' : Db) : Prop where
  agents : Grows AgentRow.Updates db.agents db'.agents
  principals : db.principals <+: db'.principals
  resources : db.resources <+: db'.resources
  policies : Grows PolicyRow.Updates db.policies db'.policies
  grants : Grows GrantRow.Updates db.grants db'.grants
  tokens : Grows TokenRow.Updates db.tokens db'.tokens
  approvalRequests : Grows ApprovalRow.Updates db.approvalRequests db'.approvalRequests
  auditLog : db.auditLog <+: db'.auditLog
  auditSequence : db.auditSequence ≤ db'.auditSequence

theorem Evolves.refl (db : Db) : db.Evolves db where
  agents := .refl AgentRow.Updates.refl _
  principals := List.prefix_rfl
  resources := List.prefix_rfl
  policies := .refl PolicyRow.Updates.refl _
  grants := .refl GrantRow.Updates.refl _
  tokens := .refl TokenRow.Updates.refl _
  approvalRequests := .refl ApprovalRow.Updates.refl _
  auditLog := List.prefix_rfl
  auditSequence := le_rfl

theorem Evolves.trans {db₁ db₂ db₃ : Db} (h : db₁.Evolves db₂) (h' : db₂.Evolves db₃) :
    db₁.Evolves db₃ where
  agents := h.agents.trans (fun _ _ _ => AgentRow.Updates.trans) h'.agents
  principals := h.principals.trans h'.principals
  resources := h.resources.trans h'.resources
  policies := h.policies.trans (fun _ _ _ => PolicyRow.Updates.trans) h'.policies
  grants := h.grants.trans (fun _ _ _ => GrantRow.Updates.trans) h'.grants
  tokens := h.tokens.trans (fun _ _ _ => TokenRow.Updates.trans) h'.tokens
  approvalRequests :=
    h.approvalRequests.trans (fun _ _ _ => ApprovalRow.Updates.trans) h'.approvalRequests
  auditLog := h.auditLog.trans h'.auditLog
  auditSequence := h.auditSequence.trans h'.auditSequence

/-- An agent that has been referred to can be referred to later. -/
theorem Evolves.agentIds {db db' : Db} (h : db.Evolves db') {id : Uuid}
    (hid : id ∈ db.agents.map (·.id)) : id ∈ db'.agents.map (·.id) :=
  (h.agents.map_prefix fun _ _ => AgentRow.Updates.id_eq).subset hid

theorem Evolves.principalIds {db db' : Db} (h : db.Evolves db') {id : Uuid}
    (hid : id ∈ db.principals.map (·.id)) : id ∈ db'.principals.map (·.id) :=
  (h.principals.map _).subset hid

theorem Evolves.grantIds {db db' : Db} (h : db.Evolves db') {id : Uuid}
    (hid : id ∈ db.grants.map (·.id)) : id ∈ db'.grants.map (·.id) :=
  (h.grants.map_prefix fun _ _ => GrantRow.Updates.id_eq).subset hid

/-- An update grows a table if the rows that it matches may become what it sets. -/
theorem grows_updateWhere {ρ : Type} {updates : ρ → ρ → Prop} {cond : ρ → Bool} {set : ρ → ρ}
    (refl : ∀ row, updates row row) (h : ∀ row, cond row = true → updates row (set row))
    (rows : List ρ) : Grows updates rows (updateWhere cond set rows) := by
  apply Grows.map
  intro row _
  split
  · exact h row ‹_›
  · exact refl row

theorem evolves_resolveApprovalRow {id approverId : Uuid} {status : ApprovalStatus}
    {reason token : Option String} {resolvedAt : String} {changes : Nat} {db db' : Db}
    (hstatus : status = .approved ∧ token.isSome = true ∨ status = .denied ∧ token = none)
    (run : resolveApprovalRow id status approverId reason token resolvedAt db =
      .ok (changes, db')) : db.Evolves db' := by
  cases run
  refine { Evolves.refl db with
    approvalRequests := grows_updateWhere ApprovalRow.Updates.refl ?_ _ }
  intro row hrow
  have hpending := (Bool.and_eq_true_iff.mp hrow).2
  exact .inr ⟨beq_iff_eq.mp hpending, ⟨hstatus, rfl, rfl⟩, rfl⟩

theorem Statement.evolves {foreignKeys : Bool} {db db' : Db} (h : Statement foreignKeys db db') :
    db.Evolves db' := by
  cases h with
  | insertAgent status run =>
      obtain ⟨-, rfl⟩ := insertAgent_eq_ok.mp run
      exact { Evolves.refl db with agents := .append AgentRow.Updates.refl _ _ }
  | updateClientKeyHash run =>
      cases run
      exact { Evolves.refl db with
        agents := grows_updateWhere AgentRow.Updates.refl (fun row _ => ⟨rfl, fun _ => rfl⟩) _ }
  | insertPrincipal run =>
      obtain ⟨-, rfl⟩ := insertPrincipal_eq_ok.mp run
      exact { Evolves.refl db with principals := List.prefix_append _ _ }
  | insertResource run =>
      obtain ⟨-, rfl⟩ := insertResource_eq_ok.mp run
      exact { Evolves.refl db with resources := List.prefix_append _ _ }
  | insertPolicy status run =>
      obtain ⟨-, rfl⟩ := insertPolicy_eq_ok.mp run
      exact { Evolves.refl db with policies := .append PolicyRow.Updates.refl _ _ }
  | deprecatePolicies run =>
      cases run
      exact { Evolves.refl db with
        policies := grows_updateWhere PolicyRow.Updates.refl
          (fun row hrow => .inr ⟨beq_iff_eq.mp hrow, rfl⟩) _ }
  | insertGrant parent revokedAt run =>
      obtain ⟨-, -, rfl⟩ := insertGrant_eq_ok.mp run
      exact { Evolves.refl db with grants := .append GrantRow.Updates.refl _ _ }
  | revokeGrant run =>
      cases run
      refine { Evolves.refl db with grants := grows_updateWhere GrantRow.Updates.refl ?_ _ }
      intro row hrow
      have hlive := (Bool.and_eq_true_iff.mp hrow).2
      exact .inr ⟨Option.isNone_iff_eq_none.mp hlive, rfl, rfl⟩
  | insertToken revoked run =>
      obtain ⟨-, -, rfl⟩ := insertToken_eq_ok.mp run
      exact { Evolves.refl db with tokens := .append TokenRow.Updates.refl _ _ }
  | revokeToken run | revokeAgentTokens run =>
      cases run
      exact { Evolves.refl db with
        tokens := grows_updateWhere TokenRow.Updates.refl (fun row _ => .inr rfl) _ }
  | insertApproval status approverId approvalToken resolvedAt run =>
      obtain ⟨-, -, rfl⟩ := insertApprovalRequest_eq_ok.mp run
      exact { Evolves.refl db with approvalRequests := .append ApprovalRow.Updates.refl _ _ }
  | approve run => exact evolves_resolveApprovalRow (.inl ⟨rfl, rfl⟩) run
  | deny run => exact evolves_resolveApprovalRow (.inr ⟨rfl, rfl⟩) run
  | insertAudit run =>
      cases run
      exact { Evolves.refl db with
        auditLog := List.prefix_append _ _
        auditSequence := Nat.le_succ _ }

end Db

end Patroclus
