import Patroclus.Properties.AgentIsolation

/-!
# The effect of a dry run

The dry run creates no session and records no action, but it goes through the same
evaluation as `request_access`, and an evaluation counts the call. A dry run that
names a session therefore takes room from the window of later requests. It is
without effect on them when it is not counted, or counted in another window.
-/

namespace Patroclus

open Foundation

/-- A call of `request_access`. -/
def Input.isRequest (input : Input) : Bool :=
  match input.event with
  | .call (.requestAccess _ _) => true
  | _ => false

section

variable {p : Platform} {w : World} {inputs : List Input}

/-- Dry runs that are counted in no window of a later request change no answer to a request. -/
theorem transcript_isRequest (calls : ∀ input ∈ inputs, input.isAccess = true)
    (uncounted : DroppedMeet (World.step p) Input.isRequest (fun w input rest =>
      w.Spares p (footprintOf Input.isRequest rest) input) w inputs) :
    (transcript (World.step p) (World.answer p) w inputs).filter
        (fun answered => answered.1.isRequest) =
      transcript (World.step p) (World.answer p) w (inputs.filter Input.isRequest) :=
  transcript_access calls uncounted

end

/-- A server that asks one agent for approval, once a minute. -/
def limitedWorld : World where
  app := ⟨{ Db.empty with agents := [registeredAgent] },
    ⟨[{ Rule.plain "require_approval" "test" with rateLimitPerMinute := some 1 }]⟩, ∅, .new⟩
  ledger := []
  up := true
  clock := 0

/-- A dry run in one session, and a request in another. -/
def rehearsal (session session' : String) : List Input := [
  .drawing ⟨500⟩ (.call (.check (some ⟨300⟩) (accessIn session ⟨300⟩))),
  .drawing ⟨600⟩ (.call (.requestAccess (some ⟨300⟩) (accessIn session' ⟨300⟩)))]

theorem rehearsal_calls {session session' : String} :
    ∀ input ∈ rehearsal session session', input.isAccess = true := by
  intro input hinput
  obtain rfl | rfl : input = _ ∨ input = _ := by simpa [rehearsal] using hinput
  · rfl
  · rfl

theorem transcript_isRequest_rehearsal :
    (transcript (World.step .unsigned) (World.answer .unsigned) limitedWorld
        (rehearsal "s" "t")).filter (fun answered => answered.1.isRequest) =
      transcript (World.step .unsigned) (World.answer .unsigned) limitedWorld
        ((rehearsal "s" "t").filter Input.isRequest) := by
  have hrate : Rule.rateLimitKey "s" "read" "db" ≠ Rule.rateLimitKey "t" "read" "db" := by decide
  refine transcript_isRequest rehearsal_calls ⟨?_, nofun, trivial⟩
  rintro - - - sessionId hsession - ⟨input, hinput, -, hkey⟩
  cases hsession
  rw [List.mem_singleton.mp hinput] at hkey
  exact hrate hkey

/-- A dry run without effect, as a promise about every run of requests and dry runs. -/
def DryRunsHaveNoEffect (p : Platform) (w : World) : Prop :=
  ∀ inputs : List Input, (∀ input ∈ inputs, input.isAccess = true) →
    ((transcript (World.step p) (World.answer p) w inputs).filter
        (fun answered => answered.1.isRequest)).map (fun answered => answerDecision answered.2) =
      (transcript (World.step p) (World.answer p) w (inputs.filter Input.isRequest)).map
        (fun answered => answerDecision answered.2)

/-- The dry run uses up the one request of the minute. -/
theorem not_dryRunsHaveNoEffect : ¬ DryRunsHaveNoEffect .unsigned limitedWorld := by
  intro h
  have hanswers := h (rehearsal "s" "s") rehearsal_calls
  revert hanswers
  decide

end Patroclus
