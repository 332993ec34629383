import Patroclus.Db.Cascade
import Patroclus.Api.Server

/-!
# What a revocation reaches

Without failures, a revocation returns, whatever the links between the grants. It revokes the
grant and the open grants that can be reached from it through open grants, and no other one;
it writes nothing but the revocation times of these; and it lists them, each of them once.
-/

namespace Patroclus

open Foundation

/-- The grant was unrevoked before, and is revoked after. -/
def NewlyRevoked (rows rows' : List GrantRow) (id : Uuid) : Prop :=
  ∃ row ∈ rows, ∃ row' ∈ rows', row.id = id ∧ row'.id = id ∧ row.revokedAt = none ∧
    row'.revokedAt.isSome = true

/-- The effect of a revocation on the table, and its result. -/
structure CascadesExactly (id : Uuid) (rows rows' : List GrantRow) (ids : List Uuid) : Prop where
  revoked_iff : List.Forall₂ (fun row row' => row'.revokedAt.isSome = true ↔
    row.revokedAt.isSome = true ∨ row.id = id ∨ LiveBelow rows id row.id) rows rows'
  kept : List.Forall₂ (fun row row' => (row.revokedAt.isSome = true → row' = row) ∧
    { row' with revokedAt := row.revokedAt } = row) rows rows'
  nodup : ids.Nodup
  head : ids.head? = some id
  listed_iff : ∀ j, j ∈ ids ↔ j = id ∨ NewlyRevoked rows rows' j

section

variable {rows rows' : List GrantRow} {id : Uuid}

/-- What is closed is what was open and is newly revoked. -/
theorem newlyRevoked_iff (distinct : (rows.map grantTree.id).Nodup)
    (revoked : GrantsRevoked rows rows') {j : Uuid} : NewlyRevoked rows rows' j ↔
      j ∈ grantTree.opens rows ∧ j ∉ grantTree.opens rows' := by
  have hsame := revoked.advances.map_id
  constructor
  · rintro ⟨row, hrow, row', hrow', rfl, hid, hopen, hmarked⟩
    refine ⟨Descent.mem_opens.mpr ⟨row, hrow, grant_open_iff.mpr hopen, rfl⟩, ?_⟩
    rw [← hid]
    exact (revoked_iff_not_open (hsame ▸ distinct) hrow').mp hmarked
  · rintro ⟨hopen, hclosed⟩
    obtain ⟨row, hrow, hunmarked, rfl⟩ := Descent.mem_opens.mp hopen
    obtain ⟨row', hrow', hid⟩ :=
      List.mem_map.mp (hsame ▸ List.mem_map_of_mem hrow : grantTree.id row ∈ rows'.map grantTree.id)
    refine ⟨row, hrow, row', hrow', rfl, hid, grant_open_iff.mp hunmarked, ?_⟩
    by_contra hremains
    exact hclosed (Descent.mem_opens.mpr ⟨row', hrow', Bool.not_eq_true _ ▸ hremains, hid⟩)

/-- A sweep in which nothing failed has the exact effect. -/
theorem cascadesExactly_of_sweeps (distinct : (rows.map grantTree.id).Nodup)
    (revoked : GrantsRevoked rows rows') {clear : Prop} {ids : List Uuid}
    (sweeps : Sweep.Sweeps (grantTree.children rows) clear (grantTree.opens rows) id (some ids)
      (grantTree.opens rows')) (complete : clear) : CascadesExactly id rows rows' ids := by
  obtain ⟨hnodup, hhead, hlisted⟩ := sweeps.lists ids rfl
  obtain ⟨hlength, hpairs⟩ := List.forall₂_iff_zip.mp revoked
  refine ⟨List.forall₂_iff_zip.mpr ⟨hlength, fun {row row'} hpair => ?_⟩,
    List.Forall₂.imp (fun row row' hrow => ?_) revoked, hnodup, hhead, fun j => ?_⟩
  · obtain ⟨hrow, hrow'⟩ := List.of_mem_zip hpair
    have hid : row'.id = row.id := by
      obtain rfl | ⟨-, revokedAt, rfl⟩ := hpairs hpair
      · rfl
      · rfl
    rw [revoked_iff_not_open (revoked.advances.map_id ▸ distinct) hrow',
      revoked_iff_not_open distinct hrow, ← below_iff_liveBelow distinct, hid]
    constructor
    · intro hclosed
      by_cases hopen : row.id ∈ grantTree.opens rows
      · exact .inr (sweeps.sound row.id hopen hclosed)
      · exact .inl hopen
    · rintro (hclosed | rfl | hbelow) hremains
      · exact hclosed (sweeps.subset hremains)
      · exact sweeps.closes ids rfl hremains
      · exact (sweeps.complete_iff ids rfl).mp complete row.id hbelow hremains
  · obtain rfl | ⟨hopen, revokedAt, rfl⟩ := hrow
    · exact ⟨fun _ => rfl, rfl⟩
    · refine ⟨fun hmarked => ?_, ?_⟩
      · rw [hopen] at hmarked
        cases hmarked
      · rfl
  · rw [hlisted, newlyRevoked_iff distinct revoked]

end

/-- A revocation in which nothing fails returns and has the exact effect, on every table with
distinct ids, however deep its recursion may go. -/
theorem revokeGrantSync_exact {p : Platform} {s : Serving} {id : Uuid} {fuel : Nat}
    (distinct : (s.app.db.grants.map (·.id)).Nodup) (faults : ∀ n, s.tape.fault n = none)
    (deep : s.app.db.grants.length < fuel) :
    ∃ ids finish, Database.revokeGrantSync p fuel id s = (.ok ids, finish) ∧
      CascadesExactly id s.app.db.grants finish.app.db.grants ids := by
  cases hrun : Database.revokeGrantSync p fuel id s with
  | mk outcome finish =>
      have henough : Sweep.Enough fuel s.openGrants id :=
        .inl (Nat.lt_of_le_of_lt (Descent.card_opens_le _) deep)
      have hcascade := revokeGrantSync_cascadeRun distinct (.refl _) henough hrun
      obtain ⟨ids, rfl⟩ := hcascade.returns (.of_faultless faults)
      exact ⟨ids, finish, rfl, cascadesExactly_of_sweeps distinct hcascade.revoked
        hcascade.sweeps (.of_faultless faults)⟩

/-- Two grants that are each other's parents, and a revoked grant between the first of them
and an open one. -/
def cyclicGrants : List GrantRow :=
  let grant (id parent : BitVec 128) (revokedAt : Option String) : GrantRow :=
    ⟨⟨id⟩, ⟨300⟩, ⟨200⟩, some ⟨parent⟩, ["read"], none, "", revokedAt, ""⟩
  [grant 1 2 none, grant 2 1 none, grant 3 1 (some "earlier"), grant 4 3 none]

def cyclicServing : Serving :=
  (initialWorld.serving (.steady 0 400)).withDb { Db.empty with grants := cyclicGrants }

theorem revokeGrantSync_exact_cyclic : ∃ ids finish,
    Database.revokeGrantSync delegationPlatform 5 ⟨1⟩ cyclicServing = (.ok ids, finish) ∧
      CascadesExactly ⟨1⟩ cyclicGrants finish.app.db.grants ids :=
  revokeGrantSync_exact (by decide) (fun _ => rfl) (by decide)

end Patroclus
