import Patroclus.Foundation.Refresh
import Patroclus.Properties.PolicyPublication

/-!
# Concurrent publications

`create_policy` and `idp_callback` publish in three steps that are synchronised
separately: the write of the new policy, the read that builds the engine, and the swap
of the engine. Nothing holds a publication back while another is under way, so an
engine that was built from an older policy may be swapped in last.
-/

namespace Patroclus

open Foundation

/-- A policy that is to be published, and the tape of its publication. -/
structure Update where
  name : String
  engine : String
  definition : String
  tape : Tape

/-- The shared state with the engines that the updates have built and not yet swapped in. -/
structure Reloading (ι : Type) where
  app : AppState
  built : ι → Option YamlEngine

namespace Update

variable (p : Platform)

/-- The database write. -/
def write (u : Update) (app : AppState) : AppState :=
  (Database.createPolicy p u.name u.engine u.definition ⟨app, [], u.tape, 0⟩).2.app

/-- The read of the active policy, with the engine that is built from it. -/
def read (u : Update) (app : AppState) : Option YamlEngine :=
  match (buildEngine p ⟨app, [], u.tape, 4⟩).1 with
  | .ok engine => some engine
  | .error _ => none

end Update

section

variable {ι : Type} [DecidableEq ι] (p : Platform) (updates : ι → Update)

/-- One atomic step of an update. An update whose read has failed swaps nothing. -/
def Reloading.step (r : Reloading ι) : Refresh ι → Reloading ι
  | .write i => { r with app := (updates i).write p r.app }
  | .read i => { r with built := Function.update r.built i ((updates i).read p r.app) }
  | .swap i => { r with app :=
      { r.app with policyEngine := (r.built i).getD r.app.policyEngine } }

def Reloading.run (r : Reloading ι) (schedule : List (Refresh ι)) : Reloading ι :=
  schedule.foldl (Reloading.step p updates) r

/-- The engine that a well-formed text builds. -/
def builtEngine (yaml : String) : YamlEngine :=
  match engineOf p yaml with
  | .ok engine => engine
  | .error _ => YamlEngine.new

/-- Updates that nothing fails: no statement does, the ids are new and differ, and every
definition builds an engine. -/
structure WellFormed (app : AppState) : Prop where
  faults : ∀ i n, (updates i).tape.fault n = none
  fresh : ∀ i, app.db.policies.any (·.id == (updates i).tape.uuid 0) = false
  distinct : Function.Injective fun i => (updates i).tape.uuid 0
  builds : ∀ i, ∃ engine, engineOf p (updates i).definition = .ok engine

end

section

variable {ι : Type} [DecidableEq ι] {p : Platform} {updates : ι → Update} {app : AppState}
  {r : Reloading ι} {schedule : List (Refresh ι)}

theorem engineOf_builtEngine {yaml : String} {engine : YamlEngine}
    (h : engineOf p yaml = .ok engine) : engineOf p yaml = .ok (builtEngine p yaml) := by
  rw [builtEngine, h]

/-- The row that an update inserts. -/
def Update.row (p : Platform) (u : Update) : PolicyRow :=
  publishedRow (u.tape.uuid 0) (p.toRfc3339 (u.tape.now 1)) u.name u.engine u.definition

theorem Update.write_eq {u : Update} (faults : ∀ n, u.tape.fault n = none)
    (fresh : app.db.policies.any (·.id == u.tape.uuid 0) = false) :
    u.write p app =
      { app with db := app.db.store (p.toRfc3339 (u.tape.now 1)) (u.row p) } := by
  rw [write, createPolicy_stored (faults _) (faults _) fresh]
  rfl

theorem Update.read_eq {u : Update} {row : PolicyRow} {engine : YamlEngine}
    (faults : ∀ n, u.tape.fault n = none) (active : app.db.activePolicies = [row])
    (builds : engineOf p row.definition = .ok engine) : u.read p app = some engine := by
  rw [read, buildEngine_of_singleton (s := ⟨app, [], u.tape, 4⟩) faults active builds]

/-- A call of `create_policy` that nobody disturbs is its three steps in a row. -/
theorem createPolicy_alone {u : Update} {engine : YamlEngine} (faults : ∀ n, u.tape.fault n = none)
    (fresh : app.db.policies.any (·.id == u.tape.uuid 0) = false)
    (builds : engineOf p u.definition = .ok engine) :
    (createPolicy p u.name u.engine u.definition ⟨app, [], u.tape, 0⟩).2.app =
      (Reloading.run p (fun _ : Unit => u) ⟨app, fun _ => none⟩
        [.write (), .read (), .swap ()]).app := by
  have hstored : Database.createPolicy p u.name u.engine u.definition ⟨app, [], u.tape, 0⟩ = _ :=
    createPolicy_stored (faults _) (faults _) fresh
  let stored : AppState :=
    { app with db := app.db.store (p.toRfc3339 (u.tape.now 1)) (u.row p) }
  have hactive : stored.db.activePolicies = [u.row p] := activePolicies_publish rfl
  have hbuild : buildEngine p ⟨stored, [], u.tape, 4⟩ = (.ok engine, ⟨stored, [], u.tape, 6⟩) :=
    buildEngine_of_singleton (s := ⟨stored, [], u.tape, 4⟩) faults hactive builds
  have hsteps : (Reloading.run p (fun _ : Unit => u) ⟨app, fun _ => none⟩
      [.write (), .read (), .swap ()]).app = { stored with policyEngine := engine } := by
    show { u.write p app with policyEngine := ((Function.update (fun _ => none) ()
      (u.read p (u.write p app))) ()).getD (u.write p app).policyEngine } = _
    rw [Update.write_eq faults fresh, Update.read_eq faults hactive builds, Function.update_self]
    rfl
  rw [hsteps]
  rcases createPolicy_of_stored hstored with ⟨built, finish, hrun, hcall⟩ |
    ⟨e, e', finish, hrun, -⟩
  · have hrun := hbuild.symm.trans hrun
    cases hrun
    rw [hcall]
    rfl
  · have hrun := hbuild.symm.trans hrun
    cases hrun

/-! ## The cell and its copy -/

/-- The active policy is the cell, the running engine the copy. -/
structure Reloading.Copies (p : Platform) (r : Reloading ι) (c : Copied ι String YamlEngine) :
    Prop where
  active : ∃ row, r.app.db.activePolicies = [row] ∧ row.definition = c.cell
  builds : engineOf p c.cell = .ok (builtEngine p c.cell)
  engine : r.app.policyEngine = c.copy
  built : r.built = c.reading

/-- The updates whose writes are still to come have new ids. -/
def Fresh (updates : ι → Update) (app : AppState) (schedule : List (Refresh ι)) : Prop :=
  ∀ i, .write i ∈ schedule → app.db.policies.any (·.id == (updates i).tape.uuid 0) = false

theorem Reloading.Copies.step {c : Copied ι String YamlEngine} {action : Refresh ι}
    (h : r.Copies p c) (faults : ∀ i n, (updates i).tape.fault n = none)
    (builds : ∀ i, ∃ engine, engineOf p (updates i).definition = .ok engine)
    (fresh : Fresh updates r.app [action]) : (r.step p updates action).Copies p
      (c.step (fun i => (updates i).definition) (builtEngine p) action) := by
  obtain ⟨row, hactive, hcell⟩ := h.active
  cases action with
  | write i =>
      obtain ⟨engine, hengine⟩ := builds i
      have hwrite := Update.write_eq (p := p) (faults i) (fresh i List.mem_cons_self)
      refine ⟨⟨(updates i).row p, ?_, rfl⟩, engineOf_builtEngine hengine, ?_, h.built⟩
      · rw [Reloading.step, hwrite]
        exact activePolicies_publish rfl
      · rw [Reloading.step, hwrite]
        exact h.engine
  | read i =>
      refine ⟨h.active, h.builds, h.engine, ?_⟩
      have hbuilds := h.builds
      rw [← hcell] at hbuilds
      rw [Reloading.step, Update.read_eq (faults i) hactive hbuilds, h.built, hcell]
      rfl
  | swap i =>
      refine ⟨h.active, h.builds, ?_, h.built⟩
      rw [Reloading.step, h.engine, h.built]
      rfl

/-- A step uses up no id but that of the policy it writes. -/
theorem Fresh.step {action : Refresh ι} {rest : List (Refresh ι)}
    (h : Fresh updates r.app (action :: rest)) (faults : ∀ i n, (updates i).tape.fault n = none)
    (distinct : Function.Injective fun i => (updates i).tape.uuid 0) (once : action ∉ rest) :
    Fresh updates (r.step p updates action).app rest := by
  intro i hi
  have hfresh := h i (List.mem_cons_of_mem _ hi)
  cases action with
  | write j =>
      have hne : j ≠ i := fun heq => once (heq ▸ hi)
      have hid : ((updates j).tape.uuid 0 == (updates i).tape.uuid 0) = false :=
        beq_eq_false_iff_ne.mpr fun heq => hne (distinct heq)
      rw [Reloading.step, Update.write_eq (faults j) (h j List.mem_cons_self)]
      show (deprecated _ _ ++ [(updates j).row p]).any (·.id == (updates i).tape.uuid 0) = false
      rw [List.any_append, any_id_deprecated, hfresh]
      simpa [Update.row, publishedRow] using hid
  | read j => exact hfresh
  | swap j => exact hfresh

theorem Reloading.Copies.run {c : Copied ι String YamlEngine} (h : r.Copies p c)
    (faults : ∀ i n, (updates i).tape.fault n = none)
    (builds : ∀ i, ∃ engine, engineOf p (updates i).definition = .ok engine)
    (distinct : Function.Injective fun i => (updates i).tape.uuid 0) (once : schedule.Nodup)
    (fresh : Fresh updates r.app schedule) : (r.run p updates schedule).Copies p
      (c.run (fun i => (updates i).definition) (builtEngine p) schedule) := by
  induction schedule generalizing r c with
  | nil => exact h
  | cons action rest ih =>
      obtain ⟨hnot, honce⟩ := List.nodup_cons.mp once
      have hfirst : Fresh updates r.app [action] := fun i hi => fresh i (by
        rw [List.mem_singleton.mp hi]
        exact List.mem_cons_self)
      exact ih (h.step faults builds hfirst) honce (fresh.step faults distinct hnot)

omit [DecidableEq ι] in
theorem Reloading.Copies.published_iff {c : Copied ι String YamlEngine} (h : r.Copies p c) :
    Published p r.app ↔ c.copy = builtEngine p c.cell := by
  obtain ⟨row, hactive, hcell⟩ := h.active
  constructor
  · rintro ⟨row', hactive', hbuilt⟩
    rw [hactive, List.singleton_inj] at hactive'
    rw [← hactive', hcell, h.builds] at hbuilt
    rw [← h.engine]
    exact (Except.ok.inj hbuilt).symm
  · intro hcopy
    refine ⟨row, hactive, ?_⟩
    rw [hcell, h.builds, h.engine, hcopy]

omit [DecidableEq ι] in
/-- Every text that is ever written builds an engine. -/
theorem engineOf_written {start : String} {engine : YamlEngine}
    (builds : ∀ i, ∃ engine, engineOf p (updates i).definition = .ok engine)
    (first : engineOf p start = .ok engine) (schedule : List (Refresh ι)) :
    engineOf p (Refresh.written (fun i => (updates i).definition) start schedule) =
      .ok (builtEngine p (Refresh.written (fun i => (updates i).definition) start schedule)) := by
  induction schedule generalizing start engine with
  | nil => exact engineOf_builtEngine first
  | cons action rest ih =>
      cases action with
      | write i =>
          obtain ⟨engine, hengine⟩ := builds i
          exact ih hengine
      | read i => exact ih first
      | swap i => exact ih first

/-- When all of the updates that were begun have returned (each of them takes the steps of
`createPolicy_alone`), the engine is the one of the active policy exactly if the update that
swapped last had read a policy that builds the same engine as the policy that was written
last. -/
theorem published_run_iff {row : PolicyRow} (wellFormed : WellFormed p updates app)
    (active : app.db.activePolicies = [row]) (builds : engineOf p row.definition =
      .ok app.policyEngine) (complete : Refresh.Complete schedule) :
    Published p (Reloading.run p updates ⟨app, fun _ => none⟩ schedule).app ↔
      ∀ before i between after, schedule = before ++ .read i :: between ++ .swap i :: after →
        (∀ step ∈ after, step.isSwap = false) →
          engineOf p (Refresh.written (fun i => (updates i).definition) row.definition before) =
            engineOf p (Refresh.written (fun i => (updates i).definition) row.definition
              schedule) := by
  let c : Copied ι String YamlEngine := ⟨row.definition, fun _ => none, app.policyEngine⟩
  have hstart : c.copy = builtEngine p c.cell :=
    Except.ok.inj (builds.symm.trans (engineOf_builtEngine builds))
  have hcopies : Reloading.Copies p (⟨app, fun _ => none⟩ : Reloading ι) c :=
    ⟨⟨row, active, rfl⟩, engineOf_builtEngine builds, rfl, rfl⟩
  have hrun := hcopies.run wellFormed.faults wellFormed.builds wellFormed.distinct complete.nodup
    fun i _ => wellFormed.fresh i
  rw [hrun.published_iff, Copied.copy_eq_iff complete hstart]
  have hwritten := engineOf_written wellFormed.builds builds
  refine forall_congr' fun before => forall_congr' fun i => forall_congr' fun between =>
    forall_congr' fun after => imp_congr_right fun _ => imp_congr_right fun _ => ?_
  rw [hwritten before, hwritten schedule, Except.ok.injEq]

end

/-- One update opens everything, and another denies everything again. -/
def openAndShut (shut : Bool) : Update where
  name := "policy"
  engine := "yaml"
  definition := if shut then denyByDefault else allowAll
  tape := { Tape.steady opening 0 with uuid := fun _ => if shut then ⟨501⟩ else ⟨500⟩ }

theorem openAndShut_wellFormed : WellFormed publishingPlatform openAndShut startedWorld.app where
  faults := fun _ _ => rfl
  fresh := by decide
  distinct := by
    intro shut shut' h
    revert shut shut'
    decide
  builds := by
    intro shut
    cases shut with
    | true => exact ⟨⟨[.plain "deny" "No matching policy"]⟩, by decide⟩
    | false => exact ⟨⟨[.plain "allow" "test"]⟩, by decide⟩

/-- Both updates write before one of them reads. -/
def takingTurns : List (Refresh Bool) :=
  [.write false, .write true, .read false, .read true, .swap true, .swap false]

theorem takingTurns_complete : Refresh.Complete takingTurns := by
  rw [Refresh.Complete]
  decide

theorem published_run_takingTurns : Published publishingPlatform (Reloading.run publishingPlatform
    openAndShut ⟨startedWorld.app, fun _ => none⟩ takingTurns).app := by
  obtain ⟨row, hactive, hbuilds⟩ := startedWorld_published
  refine (published_run_iff openAndShut_wellFormed hactive hbuilds takingTurns_complete).mpr ?_
  intro before i between after hsplit _
  have hwritten (k : Nat) (hread : takingTurns[k]? = some (.read i)) :
      Refresh.written (fun i => (openAndShut i).definition) row.definition (takingTurns.take k) =
        denyByDefault := by
    match k with
    | 2 | 3 => rfl
    | 0 | 1 | 4 | 5 | _ + 6 => cases hread
  rw [List.append_assoc] at hsplit
  have hread : takingTurns[before.length]? = some (.read i) := by
    rw [hsplit, List.getElem?_append_right (Nat.le_refl _), Nat.sub_self]
    rfl
  have hbefore : takingTurns.take before.length = before := by rw [hsplit, List.take_left]
  have hlast := hwritten before.length hread
  rw [hbefore] at hlast
  rw [hlast]
  rfl

/-- The second update comes between the read and the swap of the first. -/
def overtaking : List (Refresh Bool) :=
  [.write false, .read false, .write true, .read true, .swap true, .swap false]

theorem overtaking_complete : Refresh.Complete overtaking := by
  rw [Refresh.Complete]
  decide

/-- Convergence as a promise about all updates and all interleavings of their steps. -/
def HotReloadConverges (p : Platform) (app : AppState) : Prop :=
  ∀ (ι : Type) [DecidableEq ι] (updates : ι → Update) (schedule : List (Refresh ι)),
    WellFormed p updates app → Published p app → Refresh.Complete schedule →
      Published p (Reloading.run p updates ⟨app, fun _ => none⟩ schedule).app

/-- The database denies everything, and the engine still allows it. -/
theorem not_hotReloadConverges : ¬ HotReloadConverges publishingPlatform startedWorld.app := by
  intro h
  obtain ⟨row, hactive, hbuilt⟩ := h Bool openAndShut overtaking openAndShut_wellFormed
    startedWorld_published overtaking_complete
  have hdenies : ((Reloading.run publishingPlatform openAndShut
      ⟨startedWorld.app, fun _ => none⟩ overtaking).app.db.activePolicies.map (·.definition)) =
        [denyByDefault] := by decide
  have hallows : (Reloading.run publishingPlatform openAndShut
      ⟨startedWorld.app, fun _ => none⟩ overtaking).app.policyEngine =
        ⟨[.plain "allow" "test"]⟩ := by decide
  rw [hactive, List.map_singleton, List.singleton_inj] at hdenies
  rw [hdenies, hallows] at hbuilt
  revert hbuilt
  decide

end Patroclus
