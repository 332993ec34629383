import Patroclus.Api.Frame
import Patroclus.Db.Completion

/-!
# The publication of a policy

A policy lives twice: as the active row of the database, and as the engine that was
built from it. `create_policy` deprecates the active rows, inserts the new one, reads
the active policy back and swaps the engine, and it may stop after each of these
steps.
-/

namespace Patroclus

open Foundation

/-- The engine that a policy text builds. -/
def engineOf (p : Platform) (yaml : String) : Except PatroclusError YamlEngine :=
  if p.config.policyEngine = "yaml" then
    if yaml.isEmpty then .ok YamlEngine.new
    else
      match p.parseYaml yaml with
      | .ok rules => .ok ⟨rules⟩
      | .error message => .error (.config ("YAML policy parse error: " ++ message))
  else
    .error (.notImplemented ("policy engine '" ++ p.config.policyEngine ++
      "' not yet implemented"))

/-- The rows that are active. -/
def Db.activePolicies (db : Db) : List PolicyRow := db.policies.filter (·.status == .active)

/-- The rows after the first statement of a publication. -/
def deprecated (now : String) (rows : List PolicyRow) : List PolicyRow :=
  Db.updateWhere (·.status == .active)
    (fun row => { row with status := .deprecated, updatedAt := now }) rows

section

variable {p : Platform} {s : Serving}

/-! ## Building the engine -/

theorem engineOf_empty {engine : YamlEngine} (h : engineOf p "" = .ok engine) :
    engine = YamlEngine.new := by
  rw [engineOf] at h
  split at h
  · cases h
    rfl
  · cases h

/-- Where some text builds an engine, the empty one builds the engine without rules. -/
theorem engineOf_empty_of_ok {yaml : String} {engine : YamlEngine}
    (h : engineOf p yaml = .ok engine) : engineOf p "" = .ok YamlEngine.new := by
  unfold engineOf at h ⊢
  split at h
  · rw [if_pos (by assumption)]
    rfl
  · cases h

/-- The text that is read for the active policy; a row that cannot be read, or that is
missing, reads as empty. -/
def activeText (fault : Option String) (db : Db) : String :=
  if fault = none then (db.activePolicy.map (·.definition)).getD "" else ""

theorem loadActivePolicyYaml_run (fault : s.tape.fault s.tick = none) :
    Database.loadActivePolicyYaml s =
      (.ok (activeText (s.tape.fault (s.tick + 1)) s.app.db), s.next.next) := by
  have hprepare : Database.prepare s = (.ok (), s.next) := query_run fault
  rw [Database.loadActivePolicyYaml, Action.bind_run_ok hprepare]
  cases hread : s.tape.fault (s.tick + 1) with
  | some message =>
      have hrow : Database.queryRow Db.activePolicy s.next =
          (.error (.error (.database message)), s.next.next) :=
        Action.bind_run_error (sql_fault hread)
      rw [Action.bind_run_ok (Action.attempt_run _ _), hrow, activeText, if_neg nofun]
      rfl
  | none =>
      have hquery : query Db.activePolicy s.next = (.ok s.app.db.activePolicy, s.next.next) :=
        query_run hread
      have hrow : Database.queryRow Db.activePolicy s.next =
          (match s.app.db.activePolicy with
            | some row => .ok row
            | none => .error (.error Database.noRows), s.next.next) := by
        rw [Database.queryRow, Action.bind_run_ok hquery]
        cases s.app.db.activePolicy <;> rfl
      rw [Action.bind_run_ok (Action.attempt_run _ _), hrow, activeText, if_pos rfl]
      cases s.app.db.activePolicy <;> rfl

theorem mapError_eq_ok {α ε ε' : Type} {x : Except ε α} {f : ε → ε'} {a : α}
    (h : x.mapError f = .ok a) : x = .ok a := by
  cases x with
  | error e => cases h
  | ok b =>
      cases h
      rfl

theorem buildEngine_eq : buildEngine p = (Database.loadActivePolicyYaml >>= fun yaml =>
    match engineOf p yaml with
    | .ok engine => pure engine
    | .error e => raise e) := by
  unfold buildEngine engineOf
  congr 1
  funext yaml
  split
  · split
    · rfl
    · cases p.parseYaml yaml <;> rfl
  · rfl

theorem buildEngine_run (fault : s.tape.fault s.tick = none) : buildEngine p s =
    ((engineOf p (activeText (s.tape.fault (s.tick + 1)) s.app.db)).mapError .error,
      s.next.next) := by
  rw [buildEngine_eq, Action.bind_run_ok (loadActivePolicyYaml_run fault)]
  cases engineOf p (activeText (s.tape.fault (s.tick + 1)) s.app.db) <;> rfl

theorem buildEngine_fault {message : String} (fault : s.tape.fault s.tick = some message) :
    buildEngine p s = (.error (.error (.database message)), s.next) := by
  have hprepare : Database.prepare s = (.error (.error (.database message)), s.next) := by
    rw [Database.prepare, query, sql_fault fault]
  have hload : Database.loadActivePolicyYaml s = (.error (.error (.database message)), s.next) :=
    Action.bind_run_error hprepare
  rw [buildEngine_eq, Action.bind_run_error hload]

theorem reloadPolicy_run_ok {finish : Serving} {engine : YamlEngine}
    (h : buildEngine p s = (.ok engine, finish)) : reloadPolicy p s =
      (.ok (), finish.withApp fun app => { app with policyEngine := engine }) := by
  rw [reloadPolicy, Action.bind_run_ok h, modifyApp_run]

theorem reloadPolicy_run_error {finish : Serving} {e : Failure}
    (h : buildEngine p s = (.error e, finish)) : reloadPolicy p s = (.error e, finish) :=
  Action.bind_run_error h

/-! ## The active policy -/

theorem activePolicy_of_singleton {db : Db} {row : PolicyRow} (h : db.activePolicies = [row]) :
    db.activePolicy = some row := by
  rw [Db.activePolicies] at h
  rw [Db.activePolicy, h]
  rfl

theorem activeText_of_singleton {fault : Option String} {db : Db} {row : PolicyRow}
    (read : fault = none) (h : db.activePolicies = [row]) :
    activeText fault db = row.definition := by
  rw [activeText, if_pos read, activePolicy_of_singleton h]
  rfl

/-- The engine of the active policy is built. -/
theorem buildEngine_of_singleton {row : PolicyRow} {engine : YamlEngine}
    (faults : ∀ n, s.tape.fault n = none) (active : s.app.db.activePolicies = [row])
    (builds : engineOf p row.definition = .ok engine) :
    buildEngine p s = (.ok engine, s.next.next) := by
  rw [buildEngine_run (faults _), activeText_of_singleton (faults _) active, builds]
  rfl

theorem filter_deprecated (now : String) (rows : List PolicyRow) :
    (deprecated now rows).filter (·.status == .active) = [] := by
  rw [List.filter_eq_nil_iff, deprecated, Db.updateWhere]
  intro row hrow
  obtain ⟨old, -, rfl⟩ := List.mem_map.mp hrow
  split
  · exact Bool.false_ne_true
  · assumption

/-- After a publication the new row is the active policy. -/
theorem activePolicies_publish {db : Db} {now : String} {row : PolicyRow}
    (active : row.status = .active) :
    { db with policies := deprecated now db.policies ++ [row] : Db }.activePolicies = [row] := by
  simp [Db.activePolicies, filter_deprecated, active]

/-! ## Publishing -/

/-- The row that a publication inserts. -/
def publishedRow (id : Uuid) (now name engine definition : String) : PolicyRow :=
  ⟨id, name, engine, definition, .active, now, now⟩

/-- How far a publication has come, with its answer, and what it leaves behind. The
steps of the tape are counted from the id that is drawn. -/
inductive PublicationEffect (p : Platform) (definition : String) (s : Serving) :
    Except Failure Unit → Serving → Prop where
  | untouched {e : Failure} {finish : Serving} (fault : s.tape.fault (s.tick + 2) ≠ none)
      (app : finish.app = s.app) : PublicationEffect p definition s (.error e) finish
  | torn {e : Failure} {finish : Serving} {now : String}
      (fault : s.tape.fault (s.tick + 2) = none)
      (insertion : s.tape.fault (s.tick + 3) = none →
        s.app.db.policies.any (·.id == s.tape.uuid s.tick) = true)
      (app : finish.app = { s.app with
        db := { s.app.db with policies := deprecated now s.app.db.policies } }) :
      PublicationEffect p definition s (.error e) finish
  | unread {e : Failure} {finish : Serving} {now : String} {row : PolicyRow}
      (fault : s.tape.fault (s.tick + 2) = none)
      (fresh : s.app.db.policies.any (·.id == row.id) = false) (active : row.status = .active)
      (reading : s.tape.fault (s.tick + 4) = none → s.tape.fault (s.tick + 5) = none →
        ∀ built, engineOf p definition ≠ .ok built)
      (misreading : s.tape.fault (s.tick + 4) = none → s.tape.fault (s.tick + 5) ≠ none →
        ∀ built, engineOf p "" ≠ .ok built)
      (app : finish.app = { s.app with
        db := { s.app.db with policies := deprecated now s.app.db.policies ++ [row] } }) :
      PublicationEffect p definition s (.error e) finish
  | swapped {finish : Serving} {now : String} {row : PolicyRow} {built : YamlEngine}
      (faults : s.tape.fault (s.tick + 2) = none ∧ s.tape.fault (s.tick + 3) = none ∧
        s.tape.fault (s.tick + 4) = none)
      (fresh : s.app.db.policies.any (·.id == s.tape.uuid s.tick) = false)
      (id : row.id = s.tape.uuid s.tick) (active : row.status = .active)
      (text : row.definition = definition)
      (engine : engineOf p (if s.tape.fault (s.tick + 5) = none then definition else "") =
        .ok built)
      (app : finish.app = { s.app with
        db := { s.app.db with policies := deprecated now s.app.db.policies ++ [row] }
        policyEngine := built }) :
      PublicationEffect p definition s (.ok ()) finish

/-- A statement fails only by the tape or by its own check. -/
theorem sql_insertPolicy_run (row : PolicyRow) (s : Serving) :
    (∃ e, sql (Db.insertPolicy row) s = (.error e, s.next) ∧
      (s.tape.fault s.tick = none → s.app.db.policies.any (·.id == row.id) = true)) ∨
    (sql (Db.insertPolicy row) s = (.ok (), s.next.withDb { s.app.db with
        policies := s.app.db.policies ++ [row] }) ∧
      s.tape.fault s.tick = none ∧ s.app.db.policies.any (·.id == row.id) = false) := by
  rcases hrun : sql (Db.insertPolicy row) s with ⟨outcome, finish⟩
  cases outcome with
  | ok a =>
      obtain ⟨hfault, db, hdb, rfl⟩ := sql_eq_ok.mp hrun
      obtain ⟨hfresh, rfl⟩ := Db.insertPolicy_eq_ok.mp hdb
      exact .inr ⟨rfl, hfault, hfresh⟩
  | error e =>
      refine .inl ⟨e, by rw [sql_eq_error hrun], fun hfault => ?_⟩
      by_contra htaken
      have hok := sql_run hfault (Db.insertPolicy_eq_ok.mpr ⟨by simpa using htaken, rfl⟩)
      rw [hrun] at hok
      cases hok

/-- An update changes no id. -/
theorem any_id_deprecated (now : String) (rows : List PolicyRow) (id : Uuid) :
    (deprecated now rows).any (·.id == id) = rows.any (·.id == id) := by
  rw [deprecated, Db.updateWhere, List.any_map]
  congr 1
  funext row
  dsimp only [Function.comp]
  split
  · rfl
  · rfl

/-- The rows of a database in which a policy has been stored. -/
def Db.store (now : String) (row : PolicyRow) (db : Db) : Db :=
  { db with policies := deprecated now db.policies ++ [row] }

/-- A write that nothing fails stores the policy. -/
theorem createPolicy_stored {name engine definition : String}
    (deprecates : s.tape.fault (s.tick + 2) = none) (inserts : s.tape.fault (s.tick + 3) = none)
    (fresh : s.app.db.policies.any (·.id == s.tape.uuid s.tick) = false) :
    Database.createPolicy p name engine definition s =
      (.ok (), s.next.next.next.next.withDb (s.app.db.store (p.toRfc3339 (s.tape.now (s.tick + 1)))
        (publishedRow (s.tape.uuid s.tick) (p.toRfc3339 (s.tape.now (s.tick + 1))) name engine
          definition))) := by
  let now := p.toRfc3339 (s.tape.now (s.tick + 1))
  let row := publishedRow (s.tape.uuid s.tick) now name engine definition
  let s₃ := s.next.next.next.withDb { s.app.db with policies := deprecated now s.app.db.policies }
  have hdeprecate : sql (Db.deprecatePolicies now) s.next.next = (.ok (), s₃) :=
    sql_run deprecates rfl
  have htaken : s₃.app.db.policies.any (·.id == row.id) = false := by
    rw [← fresh]
    exact any_id_deprecated now s.app.db.policies _
  have hinsert : sql (Db.insertPolicy row) s₃ = (.ok (), _) :=
    sql_run inserts (Db.insertPolicy_eq_ok.mpr ⟨htaken, rfl⟩)
  have hstart : Database.createPolicy p name engine definition s =
      (sql (Db.deprecatePolicies now) >>= fun _ => sql (Db.insertPolicy row)) s.next.next := rfl
  rw [hstart, Action.bind_run_ok hdeprecate, hinsert]
  rfl

/-- A failed reload fails the publication, and what it has left stays. -/
theorem createPolicy_of_stored {name engine definition : String} {stored : Serving}
    (store : Database.createPolicy p name engine definition s = (.ok (), stored)) :
    (∃ built finish, buildEngine p stored = (.ok built, finish) ∧
      createPolicy p name engine definition s =
        (.ok (), finish.withApp fun app => { app with policyEngine := built })) ∨
    ∃ e e' finish, buildEngine p stored = (.error e, finish) ∧
      createPolicy p name engine definition s = (.error e', finish) := by
  rcases hbuild : buildEngine p stored with ⟨outcome, finish⟩
  cases outcome with
  | ok built =>
      refine .inl ⟨built, finish, rfl, ?_⟩
      rw [createPolicy, Action.bind_run_ok store, Action.bind_run_ok (Action.attempt_run _ _),
        reloadPolicy_run_ok hbuild]
      rfl
  | error e =>
      have hcall : ∃ e', createPolicy p name engine definition s = (.error e', finish) := by
        rw [createPolicy, Action.bind_run_ok store, Action.bind_run_ok (Action.attempt_run _ _),
          reloadPolicy_run_error hbuild]
        cases e with
        | error e => exact ⟨_, rfl⟩
        | panic => exact ⟨_, rfl⟩
        | unreachable => exact ⟨_, rfl⟩
      obtain ⟨e', hcall⟩ := hcall
      exact .inr ⟨e, e', finish, rfl, hcall⟩

/-- What a write leaves behind if one of its statements fails; otherwise it stores the
policy. -/
theorem createPolicy_fails_or_fresh (name engine definition : String) (s : Serving) :
    (s.tape.fault (s.tick + 2) ≠ none ∧ ∃ e,
      Database.createPolicy p name engine definition s = (.error e, s.next.next.next)) ∨
    (s.tape.fault (s.tick + 2) = none ∧ (s.tape.fault (s.tick + 3) = none →
        s.app.db.policies.any (·.id == s.tape.uuid s.tick) = true) ∧ ∃ e,
      Database.createPolicy p name engine definition s =
        (.error e, s.next.next.next.next.withDb { s.app.db with
          policies := deprecated (p.toRfc3339 (s.tape.now (s.tick + 1))) s.app.db.policies })) ∨
    (s.tape.fault (s.tick + 2) = none ∧ s.tape.fault (s.tick + 3) = none ∧
      s.app.db.policies.any (·.id == s.tape.uuid s.tick) = false) := by
  let now := p.toRfc3339 (s.tape.now (s.tick + 1))
  let row := publishedRow (s.tape.uuid s.tick) now name engine definition
  have hstart : Database.createPolicy p name engine definition s =
      (sql (Db.deprecatePolicies now) >>= fun _ => sql (Db.insertPolicy row)) s.next.next := rfl
  cases hfault : s.tape.fault (s.tick + 2) with
  | some message =>
      refine .inl ⟨nofun, .error (.database message), ?_⟩
      rw [hstart]
      exact Action.bind_run_error (sql_fault hfault)
  | none =>
      let s₃ := s.next.next.next.withDb { s.app.db with
        policies := deprecated now s.app.db.policies }
      have hdeprecate : sql (Db.deprecatePolicies now) s.next.next = (.ok (), s₃) :=
        sql_run hfault rfl
      have htaken : s₃.app.db.policies.any (·.id == row.id) =
          s.app.db.policies.any (·.id == s.tape.uuid s.tick) :=
        any_id_deprecated now s.app.db.policies _
      obtain ⟨e, hinsert, htorn⟩ | ⟨-, hfault₃, hfresh⟩ := sql_insertPolicy_run row s₃
      · refine .inr (.inl ⟨rfl, fun hnone => htaken ▸ htorn hnone, e, ?_⟩)
        rw [hstart, Action.bind_run_ok hdeprecate, hinsert]
        rfl
      · exact .inr (.inr ⟨rfl, hfault₃, htaken ▸ hfresh⟩)

/-- What the reload of a stored policy reads. -/
theorem buildEngine_of_stored {row : PolicyRow} {stored : Serving} {now : String}
    (active : row.status = .active) (db : stored.app.db = s.app.db.store now row)
    (fault : stored.tape.fault stored.tick = none) : buildEngine p stored =
      ((engineOf p (if stored.tape.fault (stored.tick + 1) = none then row.definition
        else "")).mapError .error, stored.next.next) := by
  have hactive : stored.app.db.activePolicy = some row := by
    rw [db]
    exact activePolicy_of_singleton (activePolicies_publish active)
  rw [buildEngine_run fault, activeText, hactive]
  rfl

theorem createPolicy_effect (name engine definition : String) (s : Serving) :
    PublicationEffect p definition s (createPolicy p name engine definition s).1
      (createPolicy p name engine definition s).2 := by
  obtain ⟨hfault, e, hstore⟩ | ⟨hfault, htorn, e, hstore⟩ | ⟨hfault₂, hfault₃, hfresh⟩ :=
    createPolicy_fails_or_fresh (p := p) name engine definition s
  · rw [createPolicy, Action.bind_run_error hstore]
    exact .untouched hfault rfl
  · rw [createPolicy, Action.bind_run_error hstore]
    exact .torn hfault htorn rfl
  · let now := p.toRfc3339 (s.tape.now (s.tick + 1))
    let row := publishedRow (s.tape.uuid s.tick) now name engine definition
    let stored := s.next.next.next.next.withDb (s.app.db.store now row)
    have hstored : Database.createPolicy p name engine definition s = (.ok (), stored) :=
      createPolicy_stored hfault₂ hfault₃ hfresh
    have hbuild (hfault₄ : s.tape.fault (s.tick + 4) = none) : buildEngine p stored =
        ((engineOf p (if s.tape.fault (s.tick + 5) = none then definition else "")).mapError
          .error, stored.next.next) := @buildEngine_of_stored p s row stored now rfl rfl hfault₄
    obtain ⟨built, finish, hrun, hcall⟩ | ⟨e, e', finish, hrun, hcall⟩ :=
      createPolicy_of_stored hstored
    · rw [hcall]
      cases hfault₄ : s.tape.fault (s.tick + 4) with
      | some message =>
          rw [buildEngine_fault hfault₄] at hrun
          cases hrun
      | none =>
          rw [hbuild hfault₄, Prod.mk.injEq] at hrun
          obtain ⟨hengine, rfl⟩ := hrun
          exact @PublicationEffect.swapped p definition s _ now row _
            ⟨hfault₂, hfault₃, hfault₄⟩ hfresh rfl rfl rfl (mapError_eq_ok hengine) rfl
    · rw [hcall]
      have hnot (built : YamlEngine) (hfault₄ : s.tape.fault (s.tick + 4) = none) : engineOf p
          (if s.tape.fault (s.tick + 5) = none then definition else "") ≠ .ok built := by
        intro hengine
        rw [hbuild hfault₄, hengine] at hrun
        cases hrun
      have happ : finish.app = stored.app := by
        have hkeeps := (keeps_buildEngine tickFree_still).eq hrun
        exact congrArg Prod.fst hkeeps
      refine @PublicationEffect.unread p definition s _ _ now row hfault₂ hfresh rfl ?_ ?_ happ
      · intro hfault₄ hfault₅ built
        have hnot := hnot built hfault₄
        rwa [if_pos hfault₅] at hnot
      · intro hfault₄ hfault₅ built
        have hnot := hnot built hfault₄
        rwa [if_neg hfault₅] at hnot

end

end Patroclus
