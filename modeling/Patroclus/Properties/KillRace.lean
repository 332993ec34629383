import Patroclus.Api.Effects
import Patroclus.Api.Flight
import Patroclus.Foundation.Run

/-!
# The emergency stop among requests in flight

The stop of an agent flags it and then revokes its tokens. A request that has passed the
check of the flag is not held up by it, and it records its token whenever its turn comes.
When the stop has returned, the agent is without a live token exactly if the revocation
did not fail on one and no request has recorded a token for the agent since.
-/

namespace Patroclus

open Foundation

/-- The agent has a token that is not revoked. -/
def Db.HasLiveToken (id : Uuid) (db : Db) : Prop :=
  ∃ row ∈ db.tokens, row.agentId = id ∧ row.revoked = false

instance (id : Uuid) (db : Db) : Decidable (db.HasLiveToken id) :=
  inferInstanceAs (Decidable (∃ row ∈ db.tokens, row.agentId = id ∧ row.revoked = false))

/-- The agent that the next step of a request records a token for. -/
def Flight.recordsFor (p : Platform) (s : Serving) : Flight → Option Uuid
  | .minted caller _ _ jti _ =>
      if s.tape.fault (s.tick + 1) = none ∧ s.app.db.tokens.any (·.id == jti) = false ∧
          (p.foreignKeys = true → s.app.db.agents.any (·.id == caller.agent.id) = true) then
        some caller.agent.id
      else none
  | _ => none

/-! ## What the steps do to the tokens -/

section

variable {p : Platform} {id : Uuid} {auth : Option Uuid} {req : AccessRequest} {shared : Shared}

/-- When a token without a grant can be recorded. -/
theorem Database.recordToken_ok_iff {jti : String} {agentId : Uuid} {s : Serving}
    (scopes : List String) (audience : String) (expiresAt : Instant) :
    (∃ finish, recordToken p jti none agentId scopes audience expiresAt s = (.ok (), finish)) ↔
      s.tape.fault (s.tick + 1) = none ∧ s.app.db.tokens.any (·.id == jti) = false ∧
        (p.foreignKeys = true → s.app.db.agents.any (·.id == agentId) = true) := by
  constructor
  · rintro ⟨finish, hrun⟩
    obtain ⟨now, middle, hnow, hsql⟩ := Action.bind_ok_iff.mp hrun
    cases hnow
    obtain ⟨hfault, db, hdb, -⟩ := sql_eq_ok.mp hsql
    obtain ⟨hfresh, hreferences, -⟩ := Db.insertToken_eq_ok.mp hdb
    exact ⟨hfault, hfresh, fun hforeign => (hreferences hforeign).1⟩
  · rintro ⟨hfault, hfresh, hagent⟩
    exact ⟨_, sql_run hfault (Db.insertToken_eq_ok.mpr
      ⟨hfresh, fun hforeign => ⟨hagent hforeign, rfl⟩, rfl⟩)⟩

/-- Only the step from `minted` touches the tokens. -/
theorem Flight.keeps_tokens_next {flight : Flight} (unminted : ∀ caller eval jwt jti expiresAt,
    flight ≠ .minted caller eval jwt jti expiresAt) :
    (next p auth req flight).Keeps fun s => s.app.db.tokens := by
  apply keeps_next
  · exact fun _ => rfl
  · exact fun _ _ => rfl
  · exact fun _ _ => rfl
  · exact fun _ _ _ => rfl
  · exact fun _ _ _ => rfl
  · exact fun _ _ _ _ _ => rfl
  · rintro ⟨caller, eval, jwt, jti, expiresAt, hminted⟩
    exact absurd hminted (unminted caller eval jwt jti expiresAt)
  · exact fun _ _ _ _ _ => rfl

/-- A request that records no token with its next step leaves the tokens as they are. -/
theorem Flight.advance_tokens_of_none {task : Underway Flight}
    (nothing : recordsFor p (task.serving shared) task.stage = none) :
    (Underway.advance (stages p auth req) shared task).1.app.db.tokens =
      shared.app.db.tokens := by
  rw [Underway.app_advance]
  show (next p auth req task.stage (task.serving shared)).2.app.db.tokens = _
  cases hstage : task.stage with
  | minted caller eval jwt jti expiresAt =>
      rw [hstage, recordsFor] at nothing
      rw [next, reply_state]
      rcases hrun : Database.recordToken p jti none caller.agent.id eval.approvedScopes req.resource
        expiresAt (task.serving shared) with ⟨e | done, finish⟩
      · rw [Database.recordToken_error hrun]
        rfl
      · rw [if_pos ((Database.recordToken_ok_iff _ _ _).mp ⟨finish, hrun⟩)] at nothing
        cases nothing
  | _ =>
      rw [← hstage]
      refine keeps_tokens_next ?_ (task.serving shared)
      intro caller eval jwt jti expiresAt hminted
      rw [hstage] at hminted
      cases hminted

/-- A request that records a token adds one row, which is live. -/
theorem Flight.advance_tokens_of_some (auth : Option Uuid) (req : AccessRequest)
    {task : Underway Flight} {agentId : Uuid} (records :
      recordsFor p (task.serving shared) task.stage = some agentId) :
    ∃ row : TokenRow, row.agentId = agentId ∧ row.revoked = false ∧
      (Underway.advance (stages p auth req) shared task).1.app.db.tokens =
        shared.app.db.tokens ++ [row] := by
  rw [Underway.app_advance]
  show ∃ row : TokenRow, _ ∧ _ ∧
    (next p auth req task.stage (task.serving shared)).2.app.db.tokens = _
  cases hstage : task.stage with
  | minted caller eval jwt jti expiresAt =>
      rw [hstage, recordsFor] at records
      split at records
      · rename_i hrecords
        cases records
        obtain ⟨finish, hrun⟩ := (Database.recordToken_ok_iff eval.approvedScopes req.resource
          expiresAt).mpr hrecords
        obtain ⟨row, hrow, rfl⟩ := Database.recordToken_ok hrun
        refine ⟨row, hrow.agentId, hrow.revoked, ?_⟩
        rw [next, reply_state, hrun]
        rfl
      · cases records
  | _ =>
      rw [hstage] at records
      cases records

/-- The stop touches the tokens in its last step. -/
theorem KillStage.advance_tokens (task : Underway KillStage) :
    (Underway.advance (stages id) shared task).1.app.db.tokens =
      if left task.stage = 1 then stopRows id (task.tape.fault task.tick) shared.app.db.tokens
      else shared.app.db.tokens := by
  rw [Underway.app_advance]
  show (next id task.stage (task.serving shared)).2.app.db.tokens = _
  cases task.stage with
  | counted killed =>
      have heffect := revokeAgentTokens_effect id (task.serving shared)
      rw [next, reply_state]
      exact congrArg Guarded.tokens heffect
  | _ => rfl

/-- No step of the stop fails before the last, and the last ends it either way. -/
theorem KillStage.advance_left (task : Underway KillStage) :
    left (Underway.advance (stages id) shared task).2.stage = left task.stage - 1 := by
  obtain ⟨stage, tape, tick⟩ := task
  cases stage with
  | counted killed =>
      let own : Serving × KillStage := (⟨shared.app, shared.ledger, tape, tick⟩, .counted killed)
      have hreturned : (stages id).left ((stages id).advance^[1] own).2 = 0 :=
        Staged.left_iterate own le_rfl
      exact hreturned
  | _ => rfl

/-- Revoking leaves a live token of the agent only by failing. -/
theorem hasLiveToken_stopRows {fault : Option String} {rows : List TokenRow} :
    (∃ row ∈ stopRows id fault rows, row.agentId = id ∧ row.revoked = false) ↔
      fault ≠ none ∧ ∃ row ∈ rows, row.agentId = id ∧ row.revoked = false := by
  cases fault with
  | some message => simp [stopRows]
  | none =>
      simp only [stopRows, ne_eq, not_true, false_and, iff_false]
      rintro ⟨row, hmem, hid, hlive⟩
      obtain ⟨old, -, rfl⟩ := mem_revokeRows.mp hmem
      split at hlive
      · cases hlive
      · rename_i hkept
        rw [if_neg hkept] at hid
        simp [hid, hlive] at hkept

end

/-! ## The race -/

/-- The tasks of a race: the stop of an agent, and the requests in flight. -/
def RaceTask {ι : Type} : Option ι → Type
  | none => Underway KillStage
  | some _ => Underway Flight

abbrev Race (ι : Type) : Type := Pool Shared (@RaceTask ι)

namespace Race

variable {ι : Type} (p : Platform) (id : Uuid) (calls : ι → Option Uuid × AccessRequest)
  (race : Race ι)

def stop : Underway KillStage := race.tasks none

def request (i : ι) : Underway Flight := race.tasks (some i)

/-- The emergency stop has returned. -/
def Stopped : Prop := race.stop.stage.left = 0

/-- One step of the stop or of a request. -/
def advance : ∀ i : Option ι, Shared → RaceTask i → Shared × RaceTask i
  | none => Underway.advance (KillStage.stages id)
  | some i => Underway.advance (Flight.stages p (calls i).1 (calls i).2)

/-- The revocation does not fail while there is something to revoke, and no request records
a token for the agent once the stop has returned. -/
def Orderly : Option ι → Prop
  | none => race.stop.stage.left = 1 → race.shared.app.db.HasLiveToken id →
      race.stop.tape.fault race.stop.tick = none
  | some i => race.Stopped →
      (race.request i).stage.recordsFor p ((race.request i).serving race.shared) ≠ some id

instance : Decidable race.Stopped := inferInstanceAs (Decidable (_ = _))

instance (i : Option ι) : Decidable (race.Orderly p id i) :=
  match i with
  | none => inferInstanceAs (Decidable (_ → _ → _))
  | some _ => inferInstanceAs (Decidable (_ = _ → _ ≠ _))

variable [DecidableEq ι] {p id calls race}

theorem left_step_stop : (stop (race.step (advance p id calls) none)).stage.left =
    race.stop.stage.left - 1 := by
  rw [stop, Pool.step_tasks_self]
  exact KillStage.advance_left race.stop

theorem stop_step_request (i : ι) :
    stop (race.step (advance p id calls) (some i)) = race.stop :=
  Pool.step_tasks_of_ne (Option.some_ne_none i).symm

/-- A step of the stop leaves a live token only if it is no revocation or a failed one. -/
theorem hasLiveToken_step_stop :
    (race.step (advance p id calls) none).shared.app.db.HasLiveToken id ↔
      race.shared.app.db.HasLiveToken id ∧
        (race.stop.stage.left = 1 → race.stop.tape.fault race.stop.tick ≠ none) := by
  have htokens : (race.step (advance p id calls) none).shared.app.db.tokens = _ :=
    KillStage.advance_tokens race.stop
  rw [Db.HasLiveToken, htokens]
  split
  · rename_i hlast
    rw [hasLiveToken_stopRows, and_comm]
    exact and_congr_right fun _ => ⟨fun hfault _ => hfault, fun h => h hlast⟩
  · rename_i hlast
    exact (and_iff_left fun h => absurd h hlast).symm

/-- A step of a request leaves a live token if there was one or it records one. -/
theorem hasLiveToken_step_request (i : ι) :
    (race.step (advance p id calls) (some i)).shared.app.db.HasLiveToken id ↔
      race.shared.app.db.HasLiveToken id ∨
        (race.request i).stage.recordsFor p ((race.request i).serving race.shared) = some id := by
  cases hrecords : (race.request i).stage.recordsFor p ((race.request i).serving race.shared) with
  | none =>
      have htokens : (race.step (advance p id calls) (some i)).shared.app.db.tokens = _ :=
        Flight.advance_tokens_of_none hrecords
      rw [Db.HasLiveToken, htokens]
      simp [Db.HasLiveToken]
  | some agentId =>
      obtain ⟨row, hid, hlive, happended⟩ :=
        Flight.advance_tokens_of_some (calls i).1 (calls i).2 hrecords
      have htokens : (race.step (advance p id calls) (some i)).shared.app.db.tokens = _ := happended
      rw [Db.HasLiveToken, htokens]
      simp [Db.HasLiveToken, or_and_right, exists_or, hid, hlive]

/-- Once the stop has returned, its agent has no live token. -/
def Kept (id : Uuid) (race : Race ι) : Prop :=
  race.Stopped → ¬ race.shared.app.db.HasLiveToken id

/-- A step keeps the promise exactly if it is orderly. -/
theorem kept_step_iff (i : Option ι) (kept : race.Kept id) :
    Kept id (race.step (advance p id calls) i) ↔ race.Orderly p id i := by
  cases i with
  | none =>
      rw [Kept, Stopped, left_step_stop, hasLiveToken_step_stop, Orderly]
      constructor
      · intro h hlast hlive
        by_contra hfault
        exact h (by omega) ⟨hlive, fun _ => hfault⟩
      · rintro h hstopped ⟨hlive, hfault⟩
        by_cases hlast : race.stop.stage.left = 1
        · exact hfault hlast (h hlast hlive)
        · have hbefore : race.stop.stage.left = 0 := by omega
          exact kept hbefore hlive
  | some i =>
      rw [Kept, Stopped, stop_step_request, hasLiveToken_step_request, Orderly]
      constructor
      · intro h hstopped hrecords
        exact h hstopped (.inr hrecords)
      · rintro h hstopped (hlive | hrecords)
        · exact kept hstopped hlive
        · exact h hstopped hrecords

/-- A promise that has been broken stays broken. -/
theorem not_kept_step (i : Option ι) (lost : ¬ race.Kept id) :
    ¬ Kept id (race.step (advance p id calls) i) := by
  obtain ⟨hstopped, hlive⟩ := Classical.not_imp.mp lost
  rw [not_not] at hlive
  intro hkept
  cases i with
  | none =>
      rw [Kept, Stopped, left_step_stop, hasLiveToken_step_stop] at hkept
      have hzero : race.stop.stage.left = 0 := hstopped
      exact hkept (by omega) ⟨hlive, fun hlast => by omega⟩
  | some i =>
      rw [Kept, Stopped, stop_step_request, hasLiveToken_step_request] at hkept
      exact hkept hstopped (.inl hlive)

/-- When the stop of an agent has returned, the agent is without a live token exactly if the
race was orderly. -/
theorem stopped_iff_orderly (start : race.stop.stage = .arrived) {schedule : List (Option ι)}
    (returned : Stopped (race.run (advance p id calls) schedule)) :
    ¬ (race.run (advance p id calls) schedule).shared.app.db.HasLiveToken id ↔
      Along (Pool.step (advance p id calls)) (Orderly p id) race schedule := by
  have hstart : race.Kept id := by
    intro hstopped
    rw [Stopped, start] at hstopped
    cases hstopped
  have hfinal : Along (Pool.step (advance p id calls)) (Orderly p id) race schedule ↔
      Kept id (race.run (advance p id calls) schedule) :=
    Along.iff_final (fun race i => kept_step_iff i) (fun race i => not_kept_step i) hstart
  rw [hfinal]
  exact ⟨fun h _ => h, fun h => h returned⟩

end Race

/-- A stop of the reading agent against one request of it. -/
def readingRace : Race Unit where
  shared := ⟨(ruledWorld [.plain "allow" "test"]).app, []⟩
  tasks
    | none => (⟨.arrived, .steady opening 700, 0⟩ : Underway KillStage)
    | some () => (⟨.arrived, .steady opening 500, 0⟩ : Underway Flight)

def readingAdvance : ∀ i : Option Unit, Shared → RaceTask i → Shared × RaceTask i :=
  Race.advance readPlatform ⟨300⟩ fun _ => (some ⟨300⟩, readDatabase)

/-- The request has its answer before the stop begins. -/
theorem Race.stopped_iff_orderly_reading :
    ¬ (readingRace.run readingAdvance (List.replicate 8 (some ()) ++ List.replicate 3 none)
      ).shared.app.db.HasLiveToken ⟨300⟩ :=
  (stopped_iff_orderly rfl (by decide +kernel)).mpr (by decide +kernel)

/-- The emergency stop winning every race, as a promise. -/
def KillWinsRaces : Prop :=
  ∀ (ι : Type) [DecidableEq ι] (p : Platform) (id : Uuid)
    (calls : ι → Option Uuid × AccessRequest) (race : Race ι) (schedule : List (Option ι)),
    (∀ i, (calls i).2.agentId = id) → race.stop.stage = .arrived →
    (∀ i, (race.request i).stage = .arrived) →
    Race.Stopped (race.run (Race.advance p id calls) schedule) →
    (∀ i, (Race.request (race.run (Race.advance p id calls) schedule) i).stage.left = 0) →
    ¬ (race.run (Race.advance p id calls) schedule).shared.app.db.HasLiveToken id

/-- The request is let in before the stop, and records its token after it. -/
theorem not_killWinsRaces : ¬ KillWinsRaces := by
  intro h
  have hanswered (i : Unit) : (Race.request (readingRace.run readingAdvance
      (List.replicate 5 (some ()) ++ List.replicate 3 none ++ List.replicate 3 (some ())))
        i).stage.left = 0 := by
    cases i
    decide +kernel
  have hrace := h Unit readPlatform ⟨300⟩ (fun _ => (some ⟨300⟩, readDatabase)) readingRace
    (List.replicate 5 (some ()) ++ List.replicate 3 none ++ List.replicate 3 (some ()))
    (fun _ => rfl) rfl (fun _ => rfl) (by decide +kernel) hanswered
  exact hrace (by decide +kernel)

end Patroclus
