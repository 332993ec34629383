import Patroclus.Api.Statements

/-!
# The database over whole runs

Whatever clients call in whatever order, whoever logs in, whichever statements fail and
however often the server restarts: no row is ever lost or rewritten beyond what its table
allows, and a database that started empty stays sound. In particular no grant ever has a
parent, so that a revocation through the API never cascades.
-/

namespace Patroclus

open Foundation

section

variable {p : Platform} {idp : IdpConfig} {isAlphanumeric : Char → Bool}

/-- What has been written stays, and what has been revoked, deprecated or resolved stays so. -/
theorem site_database_evolves (p : Platform) (idp : IdpConfig) (isAlphanumeric : Char → Bool)
    (site : Site) (inputs : List SiteInput) :
    site.world.app.db.Evolves (site.run p idp isAlphanumeric inputs).world.app.db :=
  relates_of_steps Db.Evolves.refl (fun _ _ _ => Db.Evolves.trans)
    (fun _ _ hstatement => hstatement.evolves) (site.run_executes inputs)

/-- The database of every reachable site is sound. -/
theorem site_database_sound (p : Platform) (idp : IdpConfig) (isAlphanumeric : Char → Bool)
    (inputs : List SiteInput) :
    (initialSite.run p idp isAlphanumeric inputs).world.app.db.Sound p.foreignKeys :=
  keeps_of_steps (fun _ _ hstatement => hstatement.sound) (initialSite.run_executes inputs)
    (Db.sound_empty p.foreignKeys)

/-! ## Revocation without a cascade -/

/-- The grants after one of them has been revoked at a time. -/
def revokeOne (id : Uuid) (revokedAt : String) (rows : List GrantRow) : List GrantRow :=
  Db.updateWhere (fun row => row.id == id && row.revokedAt.isNone)
    (fun row => { row with revokedAt := some revokedAt }) rows

/-- What a revocation does that finds no children: it answers with the id that it was given,
or a statement has failed; and it revokes the grant, or the first statement has failed. -/
structure RevokesAlone (p : Platform) (id : Uuid) (s : Serving)
    (outcome : Except Failure (List Uuid)) (finish : Serving) : Prop where
  app : finish.app = s.app ∧ outcome.isOk = false ∨ finish.app = { s.app with
    db := { s.app.db with
      grants := revokeOne id (p.toRfc3339 (s.tape.now s.tick)) s.app.db.grants } }
  answer : outcome = .ok [id] ∨ ∃ message, outcome = .error (.error (.database message))

theorem children_of_roots {rows : List GrantRow} {id : Uuid} {revokedAt : String}
    (roots : ∀ row ∈ rows, row.parentGrantId = none) :
    (revokeOne id revokedAt rows).filter (fun row =>
      row.parentGrantId == some id && row.revokedAt.isNone) = [] := by
  rw [List.filter_eq_nil_iff]
  intro row hrow
  obtain ⟨old, hold, rfl⟩ := Db.mem_updateWhere.mp hrow
  have hparent : (if old.id == id && old.revokedAt.isNone then
      { old with revokedAt := some revokedAt } else old).parentGrantId = none := by
    split <;> exact roots old hold
  rw [hparent]
  simp

/-- The rest of a revocation whose grant has no children. -/
theorem revokeChildren_none {s : Serving} {id : Uuid} (fuel : Nat)
    (none : s.app.db.grants.filter (fun row =>
      row.parentGrantId == some id && row.revokedAt.isNone) = []) :
    (do
      let children ← query fun db => db.grants.filter fun row =>
        row.parentGrantId == some id && row.revokedAt.isNone
      let children ← deliverRows (children.map (·.id))
      let revoked ← children.mapM (Database.revokeGrantSync p fuel)
      return id :: revoked.flatten : Handler (List Uuid)) s =
    match s.tape.fault s.tick with
    | some message => (.error (.error (.database message)), s.next)
    | .none => (.ok [id], s.next) := by
  cases hfault : s.tape.fault s.tick with
  | some message => exact Action.bind_run_error (query_fault hfault)
  | none =>
      rw [Action.bind_run_ok (query_run hfault), none]
      rfl

theorem revokeGrant_alone {s : Serving} (roots : ∀ row ∈ s.app.db.grants, row.parentGrantId = none)
    (id : Uuid) : RevokesAlone p id s (Database.revokeGrant p id s).1
      (Database.revokeGrant p id s).2 := by
  have hcall : Database.revokeGrant p id s =
      Database.revokeGrantSync p (s.app.db.grants.length + 1) id s := rfl
  rw [hcall, Database.revokeGrantSync, Action.bind_run_ok utcNow_run]
  cases hfault : s.tape.fault (s.tick + 1) with
  | some message =>
      rw [Action.bind_run_error (sql_fault hfault)]
      exact ⟨.inl ⟨rfl, rfl⟩, .inr ⟨message, rfl⟩⟩
  | none =>
      have hupdate : sql (Db.revokeGrantRow id (p.toRfc3339 (s.tape.now s.tick))) s.next =
          (.ok (), s.next.next.withDb { s.app.db with
            grants := revokeOne id (p.toRfc3339 (s.tape.now s.tick)) s.app.db.grants }) :=
        sql_run hfault rfl
      rw [Action.bind_run_ok hupdate, revokeChildren_none _ (children_of_roots roots)]
      split
      · exact ⟨.inr rfl, .inr ⟨_, rfl⟩⟩
      · exact ⟨.inr rfl, .inl rfl⟩

/-- On every reachable site a revocation through the API concerns one grant. -/
theorem site_revokeGrant_alone (p : Platform) (idp : IdpConfig) (isAlphanumeric : Char → Bool)
    (inputs : List SiteInput) (tape : Tape) (id : Uuid) :
    RevokesAlone p id ((initialSite.run p idp isAlphanumeric inputs).world.serving tape)
      (revokeGrant p id ((initialSite.run p idp isAlphanumeric inputs).world.serving tape)).1
      (revokeGrant p id ((initialSite.run p idp isAlphanumeric inputs).world.serving tape)).2 :=
  revokeGrant_alone (site_database_sound p idp isAlphanumeric inputs).grantsAreRoots id

end

end Patroclus
