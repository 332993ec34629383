import Patroclus.Db.Cascade
import Patroclus.Db.Completion
import Patroclus.Foundation.Binding

/-!
# Stored expiries

The expiry of a grant is stored as the text that `chrono` prints. `get_grant` parses the text,
and takes the current time when it does not parse, which is so for every year outside 0 to
9999. `list_grants_for_agent` compares texts, and the text of a year with a sign is below every
text without one. A lifetime that `principal_delegate` accepts can reach such years.
-/

namespace Patroclus

open Foundation

/-- An expiry that `principal_delegate` computes from a clock reading and a lifetime. -/
def Delegable (expiresAt : Instant) : Prop :=
  ∃ (now : Instant) (seconds : Nat), now.addSeconds (asI64 seconds) = some expiresAt

/-- At a later time the grants are still in the table, with the expiry that they had. -/
structure GrantsKept (rows rows' : List GrantRow) : Prop where
  distinct : (rows'.map (·.id)).Nodup
  kept : ∀ row ∈ rows, ∃ row' ∈ rows', row'.id = row.id ∧ row'.expiresAt = row.expiresAt

/-- The grants of the table were stored with these expiries. -/
structure StoredWith (p : Platform) (expiry : Uuid → Instant) (rows : List GrantRow) : Prop where
  distinct : (rows.map (·.id)).Nodup
  expiresAt : ∀ row ∈ rows, row.expiresAt = p.toRfc3339 (expiry row.id)

/-- `get_grant` answers with this expiry, if it answers. -/
def ReturnsExpiry (p : Platform) (id : Uuid) (expiresAt : Instant) (s : Serving) : Prop :=
  ∀ grant finish, Database.getGrant p id s = (.ok grant, finish) → grant.expiresAt = expiresAt

/-- The row is an unrevoked grant of the agent, and expires after `now`. -/
def GrantRow.stands (expiry : Uuid → Instant) (agentId : Uuid) (now : Instant)
    (row : GrantRow) : Bool :=
  row.agentId == agentId && row.revokedAt.isNone && decide (now < expiry row.id)

/-- `list_grants_for_agent` answers with exactly the standing grants, if it answers. -/
def ListsStanding (p : Platform) (expiry : Uuid → Instant) (agentId : Uuid) (s : Serving) : Prop :=
  ∀ grants finish, Database.listGrantsForAgent p agentId s = (.ok grants, finish) →
    (grants.map (·.id)).Perm
      ((s.app.db.grants.filter (GrantRow.stands expiry agentId (s.tape.now s.tick))).map (·.id))

/-- What `principal_delegate` stores is read back, and listed while it stands. -/
structure GrantExpirySurvives (p : Platform) : Prop where
  returned : ∀ {agentId principalId : Uuid} {parentGrantId : Option Uuid} {scopes : List String}
    {constraints : Option Json} {expiresAt : Instant} {s s₁ s₂ : Serving} {id : Uuid},
    Delegable expiresAt → Database.createGrant p agentId principalId parentGrantId scopes
      constraints expiresAt s = (.ok id, s₁) → GrantsKept s₁.app.db.grants s₂.app.db.grants →
        ReturnsExpiry p id expiresAt s₂
  listed : ∀ {expiry : Uuid → Instant} {agentId : Uuid} {s : Serving},
    (∀ row ∈ s.app.db.grants, Delegable (expiry row.id)) →
      StoredWith p expiry s.app.db.grants → ListsStanding p expiry agentId s

section

variable {p : Platform} {s s₁ s₂ finish : Serving} {id agentId principalId : Uuid}
  {parentGrantId : Option Uuid} {scopes : List String} {constraints : Option Json}
  {expiresAt : Instant} {expiry : Uuid → Instant} {rows rows' rows'' : List GrantRow}

/-! ## Tables over time -/

/-- A revocation keeps ids and expiries. -/
theorem GrantsRevoked.ids_expiries (h : GrantsRevoked rows rows') :
    rows'.map (fun row => (row.id, row.expiresAt)) =
      rows.map fun row => (row.id, row.expiresAt) := by
  induction h with
  | nil => rfl
  | cons hrow _ ih =>
      rw [List.map_cons, List.map_cons, ih]
      obtain rfl | ⟨-, revokedAt, rfl⟩ := hrow
      · rfl
      · rfl

namespace StoredWith

theorem of_ids_expiries (h : StoredWith p expiry rows)
    (same : rows'.map (fun row => (row.id, row.expiresAt)) =
      rows.map fun row => (row.id, row.expiresAt)) : StoredWith p expiry rows' := by
  have hids : rows'.map (·.id) = rows.map (·.id) := by
    have hfirst := congrArg (List.map Prod.fst) same
    rw [List.map_map, List.map_map] at hfirst
    exact hfirst
  refine ⟨hids ▸ h.distinct, fun row' hrow' => ?_⟩
  have hmem : (row'.id, row'.expiresAt) ∈ rows.map fun row => (row.id, row.expiresAt) :=
    same ▸ List.mem_map_of_mem hrow'
  obtain ⟨row, hrow, heq⟩ := List.mem_map.mp hmem
  obtain ⟨hid, hexpiry⟩ := Prod.mk.inj heq
  rw [← hexpiry, ← hid]
  exact h.expiresAt row hrow

/-- `revoke_grant` leaves every expiry as it was stored. -/
theorem revokeGrant (h : StoredWith p expiry s.app.db.grants)
    {outcome : Except Failure (List Uuid)}
    (run : Database.revokeGrant p id s = (outcome, finish)) :
    StoredWith p expiry finish.app.db.grants :=
  h.of_ids_expiries (revokeGrant_cascadeRun h.distinct run).revoked.ids_expiries

/-- `create_grant` adds a grant under a new id. -/
theorem createGrant (h : StoredWith p expiry s.app.db.grants)
    (run : Database.createGrant p agentId principalId parentGrantId scopes constraints expiresAt s =
      (.ok id, finish)) :
    StoredWith p (Function.update expiry id expiresAt) finish.app.db.grants := by
  obtain ⟨hdrawn, hfresh, row, hid, hexpiry, rfl⟩ := Database.createGrant_row run
  have hnew : ∀ old ∈ s.app.db.grants, old.id ≠ id := by
    rw [hdrawn]
    simpa using hfresh
  refine ⟨?_, fun stored hstored => ?_⟩
  · show ((s.app.db.grants ++ [row]).map (·.id)).Nodup
    rw [List.map_append, List.map_singleton, hid, List.nodup_append]
    refine ⟨h.distinct, List.nodup_singleton id, ?_⟩
    intro a ha b hb
    obtain ⟨old, hold, rfl⟩ := List.mem_map.mp ha
    rw [List.mem_singleton.mp hb]
    exact hnew old hold
  · obtain hold | hlast := List.mem_append.mp hstored
    · rw [Function.update_of_ne (hnew stored hold)]
      exact h.expiresAt stored hold
    · rw [List.mem_singleton.mp hlast, hid, Function.update_self]
      exact hexpiry

end StoredWith

/-! ## Reading one grant back -/

theorem returnsExpiry_iff (dates : p.UsesChrono) {row : GrantRow}
    (found : s.app.db.grants.find? (·.id == id) = some row)
    (stored : row.expiresAt = p.toRfc3339 expiresAt) :
    ReturnsExpiry p id expiresAt s ↔ (s.tape.fault s.tick = none →
      expiresAt.Common ∨ s.tape.now (s.tick + 1) = expiresAt) := by
  have hread (now : Instant) : (p.parseFromRfc3339 row.expiresAt).getD now = expiresAt ↔
      expiresAt.Common ∨ now = expiresAt := by
    rw [stored, dates.prints]
    by_cases hcommon : expiresAt.Common
    · rw [dates.parses hcommon]
      exact iff_of_true rfl (.inl hcommon)
    · rw [dates.rejects hcommon, or_iff_right hcommon]
      exact Iff.rfl
  constructor
  · intro h works
    have hgrant := h _ _ (Database.getGrant_eq_ok.mpr ⟨works, row, found, rfl, rfl⟩)
    exact (hread _).mp hgrant
  · intro h grant finish run
    obtain ⟨works, row', hrow', rfl, -⟩ := Database.getGrant_eq_ok.mp run
    rw [found] at hrow'
    cases hrow'
    exact (hread _).mpr (h works)

/-- A stored grant is found at every later time. -/
theorem GrantsKept.find? {row : GrantRow} (h : GrantsKept rows rows') (hrow : row ∈ rows) :
    ∃ row', rows'.find? (·.id == row.id) = some row' ∧ row'.expiresAt = row.expiresAt := by
  obtain ⟨row', hrow', hid, hexpiry⟩ := h.kept row hrow
  refine ⟨row', ?_, hexpiry⟩
  rw [← hid]
  exact find?_of_nodup_map GrantRow.id h.distinct hrow'

/-! ## Listing -/

theorem listsStanding_iff (dates : p.UsesChrono) (stored : StoredWith p expiry s.app.db.grants) :
    ListsStanding p expiry agentId s ↔ (s.tape.fault (s.tick + 1) = none →
      ∀ row ∈ s.app.db.grants, row.agentId = agentId → row.revokedAt = none →
        (s.tape.now s.tick).YearsOrdered (expiry row.id)) := by
  have hlisted : ListsStanding p expiry agentId s ↔ (s.tape.fault (s.tick + 1) = none →
      ((s.app.db.grants.filter fun row => row.agentId == agentId && row.revokedAt.isNone &&
        decide (p.toRfc3339 (s.tape.now s.tick) < row.expiresAt)).map (·.id)).Perm
      ((s.app.db.grants.filter (GrantRow.stands expiry agentId (s.tape.now s.tick))).map
        (·.id))) := by
    constructor
    · intro h works
      obtain ⟨grants, finish, hrun, hids⟩ := Database.listGrantsForAgent_run (p := p) works
      exact hids.symm.trans (h grants finish hrun)
    · intro h grants finish run
      have hworks := Database.listGrantsForAgent_works run
      obtain ⟨grants', finish', hrun, hids⟩ := @Database.listGrantsForAgent_run p s agentId hworks
      rw [hrun] at run
      cases run
      exact hids.trans (h hworks)
  rw [hlisted]
  refine imp_congr Iff.rfl ?_
  rw [map_filter_perm_iff GrantRow.id stored.distinct]
  refine forall_congr' fun row => forall_congr' fun hrow => ?_
  rw [GrantRow.stands, stored.expiresAt row hrow, dates.prints, dates.prints, Bool.eq_iff_iff]
  simp only [Bool.and_eq_true, beq_iff_eq, Option.isNone_iff_eq_none, decide_eq_true_eq]
  rw [and_congr_right_iff, Instant.rfc3339_ordered_iff]
  exact and_imp

end

/-! ## Years with a sign -/

/-- With the dates of the crate, a stored expiry is read back exactly if its year has no sign
or the clock happens to show it. Exactly the standing grants are listed where the printed years
are in order with that of the clock reading; if that has no sign, up to the year 9999. -/
theorem grantExpirySurvives_iff {p : Platform} (dates : p.UsesChrono) :
    (∀ {agentId principalId : Uuid} {parentGrantId : Option Uuid} {scopes : List String}
      {constraints : Option Json} {expiresAt : Instant} {s s₁ s₂ : Serving} {id : Uuid},
      Database.createGrant p agentId principalId parentGrantId scopes constraints expiresAt s =
        (.ok id, s₁) → GrantsKept s₁.app.db.grants s₂.app.db.grants →
          (ReturnsExpiry p id expiresAt s₂ ↔ (s₂.tape.fault s₂.tick = none →
            expiresAt.Common ∨ s₂.tape.now (s₂.tick + 1) = expiresAt))) ∧
    (∀ {expiry : Uuid → Instant} {agentId : Uuid} {s : Serving},
      StoredWith p expiry s.app.db.grants →
        (ListsStanding p expiry agentId s ↔ (s.tape.fault (s.tick + 1) = none →
          ∀ row ∈ s.app.db.grants, row.agentId = agentId → row.revokedAt = none →
            (s.tape.now s.tick).YearsOrdered (expiry row.id)))) ∧
    ∀ {now expiresAt : Instant}, now.Common →
      (now.YearsOrdered expiresAt ↔ expiresAt.year ≤ 9999) := by
  refine ⟨?_, fun stored => listsStanding_iff dates stored, Instant.yearsOrdered_iff⟩
  intro agentId principalId parentGrantId scopes constraints expiresAt s s₁ s₂ id run hkept
  obtain ⟨-, -, row, rfl, hexpiry, rfl⟩ := Database.createGrant_row run
  obtain ⟨row', hfound, hsame⟩ :=
    hkept.find? (List.mem_append_right _ (List.mem_singleton_self row))
  exact returnsExpiry_iff dates hfound (hsame.trans hexpiry)

/-- A server with one grant, stored with this expiry, whose clock stands at the epoch. -/
def servingGrant (expiresAt : Instant) : Serving where
  app := ⟨{ Db.empty with grants := [⟨⟨1⟩, ⟨300⟩, ⟨200⟩, none, [], none, expiresAt.rfc3339, none,
    Instant.rfc3339 0⟩] }, .new, ∅, .new⟩
  ledger := []
  tape := .steady 0 600
  tick := 0

theorem servingGrant_stored (expiresAt : Instant) :
    StoredWith Platform.chrono (fun _ => expiresAt) (servingGrant expiresAt).app.db.grants where
  distinct := List.nodup_singleton _
  expiresAt := by
    intro row hrow
    rw [List.mem_singleton.mp hrow]
    rfl

/-- A million million seconds after the epoch it is the year 33658. -/
def lateExpiry : Instant := 1000000000000 * 1000000000

theorem grantExpirySurvives_iff_minute : ListsStanding Platform.chrono (fun _ => 60000000000) ⟨300⟩
    (servingGrant 60000000000) ∧
    ¬ ListsStanding Platform.chrono (fun _ => lateExpiry) ⟨300⟩ (servingGrant lateExpiry) := by
  obtain ⟨-, hlisted, hyears⟩ := grantExpirySurvives_iff Platform.chrono_usesChrono
  have hnow : Instant.Common 0 := by decide
  constructor
  · refine (hlisted (servingGrant_stored _)).mpr fun _ row _ _ _ => (hyears hnow).mpr ?_
    decide
  · intro h
    have hordered :=
      (hlisted (servingGrant_stored _)).mp h rfl _ (List.mem_singleton_self _) rfl rfl
    exact absurd ((hyears hnow).mp hordered) (by decide)

theorem not_grantExpirySurvives : ¬ GrantExpirySurvives Platform.chrono := by
  intro h
  have hlists : ListsStanding Platform.chrono (fun _ => lateExpiry) ⟨300⟩
      (servingGrant lateExpiry) :=
    h.listed (fun _ _ => ⟨0, 1000000000000, by decide⟩) (servingGrant_stored _)
  have hordered := (listsStanding_iff Platform.chrono_usesChrono (servingGrant_stored _)).mp hlists
    rfl _ (List.mem_singleton_self _) rfl rfl
  have hnow : Instant.Common 0 := by decide
  exact absurd ((Instant.yearsOrdered_iff hnow).mp hordered) (by decide)

end Patroclus
