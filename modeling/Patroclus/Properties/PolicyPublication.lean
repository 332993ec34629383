import Patroclus.Api.Publication
import Patroclus.Foundation.Run

/-!
# Publication, all or nothing

The database and the engine should move together. A publication that stops between
its first statement and its answer leaves them apart: with no active policy, or with
one from which no engine was built. In runs of `create_policy` alone the two agree in
every state reached exactly when no call stops there.
-/

namespace Patroclus

open Foundation

/-- One policy is active, and it builds the running engine. -/
def Published (p : Platform) (app : AppState) : Prop :=
  ∃ row, app.db.activePolicies = [row] ∧ engineOf p row.definition = .ok app.policyEngine

/-- A restart that nothing disturbs rebuilds the running engine. -/
def Restarts (p : Platform) (app : AppState) : Prop :=
  ∀ s : Serving, s.app = app → (∀ n, s.tape.fault n = none) →
    (startUp p).Returns (fun _ finish => finish.app.policyEngine = app.policyEngine) s

/-- An error leaves the active policy and the engine as they were, and in any case they
agree afterwards. -/
structure World.PublishesWhole (p : Platform) (w : World) (input : Input) : Prop where
  unchanged : ∀ e, w.answer p input = .error e →
    (w.step p input).app.db.activePolicies = w.app.db.activePolicies ∧
    (w.step p input).app.policyEngine = w.app.policyEngine
  published : Published p (w.step p input).app
  restarts : Restarts p (w.step p input).app

/-- If the first statement of a publication goes through, then so do the insertion and
the reading, and the definition builds the engine that is then put in place: an engine
without rules, should reading the row fail. -/
def Serving.Publishes (p : Platform) (s : Serving) (definition : String) : Prop :=
  s.tape.fault (s.tick + 2) = none → s.tape.fault (s.tick + 3) = none ∧
    s.app.db.policies.any (·.id == s.tape.uuid s.tick) = false ∧
    s.tape.fault (s.tick + 4) = none ∧
    ∃ built, engineOf p definition = .ok built ∧
      (s.tape.fault (s.tick + 5) = none ∨ built = YamlEngine.new)

def World.Publishes (p : Platform) (w : World) (input : Input) : Prop :=
  match input.event with
  | .call (.createPolicy _ _ definition) =>
      w.up = true → (w.serving input.tape).Publishes p definition
  | _ => True

section

variable {p : Platform} {w : World} {inputs : List Input} {app : AppState} {s finish : Serving}
  {definition : String}

/-! ## Restarting -/

theorem createDefaultPolicy_skips {row : PolicyRow} (active : s.app.db.activePolicies = [row])
    (faults : ∀ n, s.tape.fault n = none) :
    Database.createDefaultPolicy p s = (.ok (), s.next) := by
  have hcount : s.app.db.policies.countP (·.status == .active) = 1 := by
    rw [List.countP_eq_length_filter]
    exact congrArg List.length active
  have hquery : query (fun db => db.policies.countP (·.status == .active)) s =
      (.ok 1, s.next) := by
    rw [query_run (faults s.tick), hcount]
  rw [Database.createDefaultPolicy, Action.bind_run_ok (Action.attempt_run _ _), hquery]
  rfl

theorem Published.restarts (h : Published p app) : Restarts p app := by
  obtain ⟨row, hactive, hengine⟩ := h
  rintro s rfl faults
  let s₀ := s.withApp freshMemory
  have hdefault : Database.createDefaultPolicy p s₀ = (.ok (), s₀.next) :=
    createDefaultPolicy_skips hactive faults
  have hbuild : buildEngine p s₀.next = (.ok s.app.policyEngine, s₀.next.next.next) :=
    buildEngine_of_singleton faults hactive hengine
  refine .bind_run (modifyApp_run _) ?_
  refine .bind_run hdefault ?_
  exact .bind_run hbuild (.of_run (modifyApp_run _) rfl)

/-- The first start of a server publishes the policy of a fresh database. -/
theorem published_start {input : Input} {built : YamlEngine} (event : input.event = .restart)
    (faults : ∀ n, input.tape.fault n = none) (builds : engineOf p denyByDefault = .ok built) :
    Published p (initialWorld.step p input).app := by
  let s₀ := (initialWorld.serving input.tape).withApp freshMemory
  let now := p.toRfc3339 (input.tape.now 2)
  let row := publishedRow (input.tape.uuid 1) now "default" "yaml" denyByDefault
  let s₁ := s₀.next.next.next.next.withDb { Db.empty with policies := [row] }
  have hdefault : Database.createDefaultPolicy p s₀ = (.ok (), s₁) := by
    have hcount : query (fun db => db.policies.countP (·.status == .active)) s₀ =
        (.ok 0, s₀.next) := query_run (faults 0)
    rw [Database.createDefaultPolicy, Action.bind_run_ok (Action.attempt_run _ _), hcount]
    exact sql_run (s := s₀.next.next.next) (faults 3) (Db.insertPolicy_eq_ok.mpr ⟨rfl, rfl⟩)
  have hbuild : buildEngine p s₁ = (.ok built, s₁.next.next) :=
    buildEngine_of_singleton faults (show s₁.app.db.activePolicies = [row] from rfl) builds
  have hstart : startUp p (initialWorld.serving input.tape) = (.ok (),
      s₁.next.next.withApp fun app => { app with policyEngine := built }) := by
    rw [startUp, Action.bind_run_ok (modifyApp_run _), Action.bind_run_ok hdefault,
      Action.bind_run_ok hbuild, modifyApp_run]
  have hstep : (initialWorld.step p input).app =
      (startUp p (initialWorld.serving input.tape)).2.app := by
    rw [World.step, event]
  rw [hstep, hstart]
  exact ⟨row, rfl, builds⟩

/-! ## Publishing -/

theorem publishedRow_ne {row row' : PolicyRow} (stored : s.app.db.activePolicies = [row])
    (fresh : s.app.db.policies.any (·.id == row'.id) = false) : row' ≠ row := by
  rintro rfl
  have hmem : row' ∈ s.app.db.activePolicies := by simp [stored]
  have htaken : s.app.db.policies.any (·.id == row'.id) = true :=
    List.any_eq_true.mpr ⟨row', List.mem_of_mem_filter hmem, beq_self_eq_true _⟩
  rw [htaken] at fresh
  cases fresh

/-- After a swap, the engine is the one of the definition exactly if the row has been read
or the definition has no rules. -/
theorem Serving.publishes_iff_of_swapped {built : YamlEngine}
    (faults : s.tape.fault (s.tick + 2) = none ∧ s.tape.fault (s.tick + 3) = none ∧
      s.tape.fault (s.tick + 4) = none)
    (fresh : s.app.db.policies.any (·.id == s.tape.uuid s.tick) = false)
    (engine : engineOf p (if s.tape.fault (s.tick + 5) = none then definition else "") =
      .ok built) : s.Publishes p definition ↔ engineOf p definition = .ok built := by
  obtain ⟨hfault₂, hfault₃, hfault₄⟩ := faults
  by_cases hfault₅ : s.tape.fault (s.tick + 5) = none
  · rw [if_pos hfault₅] at engine
    exact iff_of_true (fun _ => ⟨hfault₃, fresh, hfault₄, built, engine, .inl hfault₅⟩) engine
  · rw [if_neg hfault₅] at engine
    constructor
    · intro h
      obtain ⟨-, -, -, built', hbuilt', hread⟩ := h hfault₂
      rw [hbuilt', hread.resolve_left hfault₅, engineOf_empty engine]
    · intro hbuilt _
      exact ⟨hfault₃, fresh, hfault₄, built, hbuilt, .inr (engineOf_empty engine)⟩

/-- One publication, over a state in which the policy and the engine agree. -/
theorem PublicationEffect.whole_iff {outcome : Except Failure Unit}
    (h : PublicationEffect p definition s outcome finish) (published : Published p s.app) :
    ((∀ e, outcome = .error e → finish.app.db.activePolicies = s.app.db.activePolicies ∧
        finish.app.policyEngine = s.app.policyEngine) ∧ Published p finish.app) ↔
      s.Publishes p definition := by
  obtain ⟨old, hold, hengine⟩ := published
  cases h with
  | untouched fault app =>
      rw [app]
      exact iff_of_true ⟨fun _ _ => ⟨rfl, rfl⟩, old, hold, hengine⟩ fun h => absurd h fault
  | @torn e _ now fault insertion app =>
      -- No policy is active any more.
      refine iff_of_false (fun h => ?_) fun h => ?_
      · obtain ⟨row, hactive, -⟩ := h.2
        rw [app, Db.activePolicies, filter_deprecated] at hactive
        cases hactive
      · obtain ⟨hfault₃, hfresh, -⟩ := h fault
        rw [insertion hfault₃] at hfresh
        cases hfresh
  | @unread e _ now row fault fresh active reading misreading app =>
      -- The new policy is active, but the answer is an error.
      refine iff_of_false (fun h => ?_) fun h => ?_
      · obtain ⟨hsame, -⟩ := h.1 e rfl
        rw [app, activePolicies_publish active, hold] at hsame
        exact publishedRow_ne hold fresh (List.singleton_inj.mp hsame)
      · obtain ⟨-, -, hfault₄, built, hbuilt, hread⟩ := h fault
        by_cases hfault₅ : s.tape.fault (s.tick + 5) = none
        · exact reading hfault₄ hfault₅ built hbuilt
        · exact misreading hfault₄ hfault₅ _ (engineOf_empty_of_ok hbuilt)
  | @swapped _ now row built faults fresh id active text engine app =>
      have hactive : finish.app.db.activePolicies = [row] := by
        rw [app]
        exact activePolicies_publish active
      have hpublished : Published p finish.app ↔ engineOf p definition = .ok built := by
        constructor
        · rintro ⟨row', hactive', hbuilt⟩
          rw [hactive, List.singleton_inj] at hactive'
          rwa [← hactive', text, app] at hbuilt
        · intro hbuilt
          refine ⟨row, hactive, ?_⟩
          rwa [text, app]
      rw [Serving.publishes_iff_of_swapped faults fresh engine, ← hpublished]
      constructor
      · intro h
        exact h.2
      · intro h
        refine ⟨fun e herror => ?_, h⟩
        cases herror

theorem World.publishesWhole_iff {input : Input} {name engine : String}
    (event : input.event = .call (.createPolicy name engine definition))
    (published : Published p w.app) : w.PublishesWhole p input ↔ w.Publishes p input := by
  have hwhole : w.PublishesWhole p input ↔ (∀ e, w.answer p input = .error e →
      (w.step p input).app.db.activePolicies = w.app.db.activePolicies ∧
      (w.step p input).app.policyEngine = w.app.policyEngine) ∧
        Published p (w.step p input).app :=
    ⟨fun h => ⟨h.unchanged, h.published⟩, fun ⟨hunchanged, hpublished⟩ =>
      ⟨hunchanged, hpublished, hpublished.restarts⟩⟩
  rw [hwhole]
  unfold World.Publishes World.answer World.reply World.step
  rw [event]
  cases hup : w.up with
  | false =>
      exact iff_of_true ⟨fun _ _ => ⟨rfl, rfl⟩, published⟩ nofun
  | true =>
      have heffect := createPolicy_effect (p := p) name engine definition (w.serving input.tape)
      have hiff := heffect.whole_iff published
      have hserve : serve p (.createPolicy name engine definition) (w.serving input.tape) =
          ((createPolicy p name engine definition (w.serving input.tape)).1.map
            fun _ => .policyCreated,
            (createPolicy p name engine definition (w.serving input.tape)).2) := by
        rcases hrun : createPolicy p name engine definition (w.serving input.tape) with
          ⟨outcome, finish⟩
        cases outcome with
        | ok _ => exact Action.bind_run_ok hrun
        | error e => exact Action.bind_run_error hrun
      dsimp only
      rw [if_pos rfl, if_pos rfl, hserve]
      have herror (e : Failure) : ((createPolicy p name engine definition
          (w.serving input.tape)).1.map fun _ => Reply.policyCreated) = .error e ↔
            (createPolicy p name engine definition (w.serving input.tape)).1 = .error e := by
        cases (createPolicy p name engine definition (w.serving input.tape)).1 <;> simp [Except.map]
      simp only [herror, true_implies]
      exact hiff

/-- A run of publications over a state in which the policy and the engine agree is all or
nothing, call by call, exactly if no call stops half way. -/
theorem publishesWhole_along_iff
    (calls : ∀ input ∈ inputs, ∃ name engine definition,
      input.event = .call (.createPolicy name engine definition))
    (published : Published p w.app) :
    Along (World.step p) (World.PublishesWhole p) w inputs ↔
      Along (World.step p) (World.Publishes p) w inputs := by
  refine Along.congr_of_invariant (I := fun w => Published p w.app) (fun w input hcall h => ?_)
    (fun w input _ h => h.published) calls published
  obtain ⟨name, engine, definition, hevent⟩ := hcall
  exact World.publishesWhole_iff hevent h

end

/-- A platform that knows the policy text that lets everyone do everything. -/
def publishingPlatform : Platform :=
  .concrete (.ofTable [] List.nodup_nil) (parseKnown allowAll [.plain "allow" "test"])

def startedWorld : World := initialWorld.step publishingPlatform (.steady .restart opening 100)

theorem startedWorld_published : Published publishingPlatform startedWorld.app :=
  published_start rfl (fun _ => rfl) rfl

/-- The publication of a text. -/
def publishing (definition : String) : Input :=
  .steady (.call (.createPolicy "open" "yaml" definition)) opening 200

theorem publishing_calls (definition : String) : ∀ input ∈ [publishing definition],
    ∃ name engine definition, input.event = .call (.createPolicy name engine definition) := by
  intro input hinput
  rw [List.mem_singleton.mp hinput]
  exact ⟨_, _, _, rfl⟩

theorem publishesWhole_along_allowAll :
    Along (World.step publishingPlatform) (World.PublishesWhole publishingPlatform) startedWorld
      [publishing allowAll] := by
  have hfresh : startedWorld.app.db.policies.any (·.id == ⟨200⟩) = false := by decide
  refine (publishesWhole_along_iff (publishing_calls _) startedWorld_published).mpr ⟨?_, trivial⟩
  exact fun _ _ => ⟨rfl, hfresh, rfl, ⟨[.plain "allow" "test"]⟩, by decide, .inl rfl⟩

/-- Publication as a promise about every run of `create_policy` over a state in which the
policy and the engine agree. -/
def PublicationsWhole (p : Platform) (w : World) : Prop :=
  ∀ inputs : List Input, (∀ input ∈ inputs, ∃ name engine definition,
    input.event = .call (.createPolicy name engine definition)) →
      Along (World.step p) (World.PublishesWhole p) w inputs

/-- A text that is not a policy becomes the active policy, and the call fails. -/
theorem not_publicationsWhole : ¬ PublicationsWhole publishingPlatform startedWorld := by
  intro h
  obtain ⟨hwhole, -⟩ := h [publishing "no policy"] (publishing_calls _)
  have hpublishes := (World.publishesWhole_iff rfl startedWorld_published).mp hwhole
  obtain ⟨-, -, -, built, hbuilt, -⟩ := hpublishes rfl rfl
  have herror : engineOf publishingPlatform "no policy" =
      .error (.config "YAML policy parse error: unknown policy text") := by decide
  rw [herror] at hbuilt
  cases hbuilt

end Patroclus
