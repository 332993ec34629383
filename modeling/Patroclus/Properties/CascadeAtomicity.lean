import Patroclus.Db.Cascade
import Patroclus.Api.Server

/-!
# A revocation that fails half way

A revocation runs its statements one by one, without a transaction. A failing statement ends
it with an error, and what was revoked before remains so. A child whose row cannot be converted
is left out, a step of the query that fails leaves out all further children, and no error tells.
So it is atomic exactly if no step of it fails, or the first one that matters does: the first
update, or, where that changes nothing, the query or the update of the first child that is
delivered.
-/

namespace Patroclus

open Foundation

/-- A revocation that fails has changed no grant, and one that returns has revoked every grant
it can reach. -/
def RevocationAtomic (p : Platform) (s : Serving) (id : Uuid) : Prop :=
  ∀ outcome finish, Database.revokeGrant p id s = (outcome, finish) →
    (∀ e, outcome = .error e → finish.app.db.grants = s.app.db.grants) ∧
    ∀ ids, outcome = .ok ids → ∀ row ∈ finish.app.db.grants,
      row.id = id ∨ LiveBelow s.app.db.grants id row.id → row.revokedAt.isSome = true

/-- Some child is delivered, and the update of the first one fails. -/
def FirstChildRefused (s : Serving) (id : Uuid) : Prop :=
  deliveredChildren s.app.db.grants id s ≠ [] ∧
    s.tape.fault (deliveredTick s.app.db.grants id s + 1) ≠ none

/-- Nothing fails, or something does before anything has changed. -/
def WholeOrNothing (s : Serving) (id : Uuid) : Prop :=
  s.tape.Clear s.tick
    (cascadeSteps s.app.db.grants (s.app.db.grants.length + 1) s.openGrants id) ∨
  s.tape.fault (s.tick + 1) ≠ none ∨
  id ∉ s.openGrants ∧ (s.tape.fault (s.tick + 2) ≠ none ∨ FirstChildRefused s id)

section

variable {p : Platform} {s finish : Serving} {id : Uuid}

/-- A call that returns is atomic exactly if nothing failed. -/
theorem CascadeRun.atomic_iff_clear {ids : List Uuid} {fuel : Nat}
    (h : CascadeRun s.app.db.grants fuel id s (.ok ids) finish)
    (distinct : (s.app.db.grants.map grantTree.id).Nodup) :
    (∀ row ∈ finish.app.db.grants, row.id = id ∨ LiveBelow s.app.db.grants id row.id →
      row.revokedAt.isSome = true) ↔
      s.tape.Clear s.tick (cascadeSteps s.app.db.grants fuel s.openGrants id) := by
  have hsame := h.revoked.advances.map_id
  rw [h.sweeps.complete_iff ids rfl]
  constructor
  · intro hrevoked j hbelow hremains
    obtain ⟨row, hrow, hopen, rfl⟩ := Descent.mem_opens.mp hremains
    have hmarked := hrevoked row hrow (.inr ((below_iff_liveBelow distinct).mp hbelow))
    exact (revoked_iff_not_open (hsame ▸ distinct) hrow).mp hmarked hremains
  · intro hcomplete row hrow hreached
    rw [revoked_iff_not_open (hsame ▸ distinct) hrow]
    obtain hid | hbelow := hreached
    · exact hid ▸ h.sweeps.closes ids rfl
    · exact hcomplete row.id ((below_iff_liveBelow distinct).mpr hbelow)

theorem Listing.firstChildRefused_iff {delivered : List Uuid} {before : Serving}
    (h : Listing s.app.db.grants id s delivered before) :
    FirstChildRefused s id ↔ delivered ≠ [] ∧ before.tape.fault (before.tick + 1) ≠ none := by
  rw [h.delivered_eq, h.tape, h.tick_eq]
  exact Iff.rfl

/-- The calls of a revocation that fails have changed nothing exactly if the grant was not
open and the first child was refused. -/
theorem Listing.unchanged_iff {delivered : List Uuid} {before : Serving} {fuel : Nat} {e : Failure}
    (h : Listing s.app.db.grants id s delivered before)
    (runs : CascadeRuns s.app.db.grants fuel delivered before (.error e) finish) :
    finish.openGrants = s.openGrants ↔ id ∉ s.openGrants ∧ FirstChildRefused s id := by
  have hsome : delivered ≠ [] := by
    rintro rfl
    obtain ⟨lists, hlists⟩ := runs.sweeps.returns trivial
    cases hlists
  rw [h.firstChildRefused_iff]
  constructor
  · intro hsame
    have hid : id ∉ s.openGrants := fun hopen => by
      have hremains := runs.sweeps.subset (hsame.symm ▸ hopen)
      exact Finset.notMem_erase id _ (h.opens ▸ hremains)
    refine ⟨hid, hsome, fun hworks => ?_⟩
    obtain ⟨c, rest, rfl⟩ := List.exists_cons_of_ne_nil hsome
    have hlisted := h.listed.subset (List.mem_cons_self (a := c) (l := rest))
    refine runs.closes c rfl hworks ?_
    rw [hsame]
    exact Finset.mem_of_mem_erase (Sweep.mem_openChildren.mp hlisted).2
  · rintro ⟨hid, -, hfails⟩
    rw [(runs.refused hsome hfails).2, h.opens, Finset.erase_eq_of_notMem hid]

/-- The calls of a revocation are sweeps. -/
theorem Listing.runs_of_calls {delivered : List Uuid} {before : Serving}
    {outcome : Except Failure (List (List Uuid))}
    (h : Listing s.app.db.grants id s delivered before)
    (distinct : (s.app.db.grants.map grantTree.id).Nodup)
    (run : delivered.mapM (Database.revokeGrantSync p s.app.db.grants.length) before =
      (outcome, finish)) :
    CascadeRuns s.app.db.grants s.app.db.grants.length delivered before outcome finish :=
  h.runs distinct (.refl _) (.inl (Nat.lt_succ_of_le (Descent.card_opens_le _)))
    (fun hsince henough hcall => revokeGrantSync_cascadeRun distinct hsince henough hcall) run

/-- A revocation that returns is atomic exactly if nothing failed. -/
theorem revocationAtomic_iff_of_ok {ids : List Uuid}
    (distinct : (s.app.db.grants.map grantTree.id).Nodup)
    (run : Database.revokeGrant p id s = (.ok ids, finish)) :
    RevocationAtomic p s id ↔ WholeOrNothing s id := by
  have hcascade := revokeGrant_cascadeRun distinct run
  have hatomic : RevocationAtomic p s id ↔ s.tape.Clear s.tick (cascadeSteps s.app.db.grants
      (s.app.db.grants.length + 1) s.openGrants id) := by
    rw [← hcascade.atomic_iff_clear distinct, RevocationAtomic]
    constructor
    · intro h
      exact (h _ _ run).2 ids rfl
    · rintro h _ _ hrun
      cases run.symm.trans hrun
      exact ⟨nofun, fun _ _ => h⟩
  rw [hatomic, WholeOrNothing]
  refine (or_iff_left ?_).symm
  have hcall : CascadeCall p s.app.db.grants s.app.db.grants.length id s (.ok ids) finish :=
    revokeGrantSync_cascadeCall distinct (.refl _) run
  generalize houtcome : (Except.ok ids : Except Failure (List Uuid)) = outcome at hcall
  cases hcall with
  | refused => cases houtcome
  | unlisted => cases houtcome
  | @listed delivered before _ lists hlisting hcalls =>
      rintro (hupdate | ⟨-, hquery | hfirst⟩)
      · exact hupdate hlisting.update
      · exact hquery hlisting.query
      · obtain ⟨hsome, hfails⟩ := hlisting.firstChildRefused_iff.mp hfirst
        obtain ⟨⟨e, rfl⟩, -⟩ := (hlisting.runs_of_calls distinct hcalls).refused hsome hfails
        cases houtcome

/-- A revocation that fails is atomic exactly if it did so before anything had changed. -/
theorem revocationAtomic_iff_of_error {e : Failure}
    (distinct : (s.app.db.grants.map grantTree.id).Nodup)
    (run : Database.revokeGrant p id s = (.error e, finish)) :
    RevocationAtomic p s id ↔ WholeOrNothing s id := by
  have hcascade := revokeGrant_cascadeRun distinct run
  have hunclear : ¬ s.tape.Clear s.tick (cascadeSteps s.app.db.grants
      (s.app.db.grants.length + 1) s.openGrants id) := fun h => by
    obtain ⟨ids, hids⟩ := hcascade.returns h
    cases hids
  have hatomic : RevocationAtomic p s id ↔ finish.openGrants = s.openGrants := by
    refine Iff.trans ?_ (hcascade.revoked.eq_iff distinct)
    constructor
    · intro h
      exact (h _ _ run).1 e rfl
    · rintro h _ _ hrun
      cases run.symm.trans hrun
      exact ⟨fun _ _ => h, nofun⟩
  rw [hatomic, WholeOrNothing, or_iff_right hunclear]
  have hcall : CascadeCall p s.app.db.grants s.app.db.grants.length id s (.error e) finish :=
    revokeGrantSync_cascadeCall distinct (.refl _) run
  generalize houtcome : (Except.error e : Except Failure (List Uuid)) = outcome at hcall
  cases hcall with
  | refused hupdate => exact iff_of_true (hcascade.refused hupdate).2 (.inl hupdate)
  | unlisted hupdate hquery _ _ hopens =>
      rw [hopens, Finset.erase_eq_self, or_iff_right (not_not_intro hupdate)]
      exact (and_iff_left (.inl hquery)).symm
  | @listed delivered before _ lists hlisting hcalls =>
      have hruns := hlisting.runs_of_calls distinct hcalls
      rw [or_iff_right (not_not_intro hlisting.update),
        or_iff_right (not_not_intro hlisting.query)]
      cases lists with
      | error e => exact hlisting.unchanged_iff hruns
      | ok lists => cases houtcome

end

/-- A revocation is atomic exactly if nothing fails, or something does before anything has
changed. -/
theorem revocationAtomic_iff {p : Platform} {s : Serving} {id : Uuid}
    (distinct : (s.app.db.grants.map (·.id)).Nodup) :
    RevocationAtomic p s id ↔ WholeOrNothing s id := by
  cases hrun : Database.revokeGrant p id s with
  | mk outcome finish =>
      cases outcome with
      | ok ids => exact revocationAtomic_iff_of_ok distinct hrun
      | error e => exact revocationAtomic_iff_of_error distinct hrun

/-- A grant and its two children, on a server where some steps of the tape fail. The rows of the
children take the steps 3 to 6, and the first call for a child updates in step 8. -/
def familyServing (revokedAt : Option String) (failing : List Nat) : Serving :=
  let grant (id : BitVec 128) (parent : Option Uuid) (revokedAt : Option String) : GrantRow :=
    ⟨⟨id⟩, ⟨300⟩, ⟨200⟩, parent, ["read"], none, "", revokedAt, ""⟩
  let tape : Tape := { Tape.steady 100 400 with
    fault := fun n => if n ∈ failing then some "disk I/O error" else none }
  (initialWorld.serving tape).withDb { Db.empty with
    grants := [grant 1 none revokedAt, grant 2 (some ⟨1⟩) none, grant 3 (some ⟨1⟩) none] }

/-- The first update is refused; or the grant is revoked already, the row of one child cannot be
converted, and the update of the other is refused. -/
theorem revocationAtomic_iff_refused :
    RevocationAtomic delegationPlatform (familyServing none [1]) ⟨1⟩ ∧
      RevocationAtomic delegationPlatform (familyServing (some "earlier") [4, 8]) ⟨1⟩ := by
  constructor
  · exact (revocationAtomic_iff (by decide)).mpr (.inr (.inl (by decide)))
  · exact (revocationAtomic_iff (by decide)).mpr
      (.inr (.inr ⟨by decide, .inr ⟨by decide, by decide⟩⟩))

/-- Atomic revocation, as a promise about every table and every pattern of failures. -/
def RevocationAlwaysAtomic : Prop :=
  ∀ (p : Platform) (s : Serving) (id : Uuid), (s.app.db.grants.map (·.id)).Nodup →
    RevocationAtomic p s id

/-- The update of a child fails after the parent has been revoked. -/
theorem not_revocationAlwaysAtomic : ¬ RevocationAlwaysAtomic := by
  intro h
  have hatomic := h delegationPlatform (familyServing none [8]) ⟨1⟩ (by decide)
  have hunchanged := (hatomic _ _ rfl).1 (.error (.database "disk I/O error")) rfl
  exact absurd hunchanged (by decide +kernel)

end Patroclus
