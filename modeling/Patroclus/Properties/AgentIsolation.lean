import Patroclus.Api.Interference
import Patroclus.Properties.DefaultDeny

/-!
# Agents and each other

Sessions and rate-limit windows are kept under texts that the client chooses. A
session records the agent for which it was created, and nobody compares it with the
caller. An agent is answered as if another did not exist when the other's calls run
in no session that it will name later, and are counted in no such window.
-/

namespace Patroclus

open Foundation

/-- The agent whose client key an access call presents. -/
def Call.caller : Call → Option Uuid
  | .requestAccess auth _ | .check auth _ => auth
  | _ => none

def Input.caller (input : Input) : Option Uuid :=
  match input.event with
  | .call call => call.caller
  | .restart => none

/-- An access call of this agent. -/
def Input.isOf (agent : Uuid) (input : Input) : Bool := input.caller == some agent

/-- The input writes in no session and in no window that the agent names later. -/
def World.StaysApart (p : Platform) (agent : Uuid) (w : World) (input : Input)
    (rest : List Input) : Prop :=
  w.Spares p { footprintOf (Input.isOf agent) rest with ids := ∅ } input

section

variable {p : Platform} {w : World} {inputs : List Input} {agent other : Uuid}

/-- Drawn ids that are not in the footprint are spared as well. -/
theorem World.Spares.of_ids {f : Footprint} {input : Input}
    (h : w.Spares p { f with ids := ∅ } input) (ids : ∀ n, input.tape.uuid n ∉ f.ids) :
    w.Spares p f input := by
  obtain ⟨event, arrival, tape⟩ := input
  cases event with
  | restart => exact h
  | call call =>
      intro hup
      have hspares := h hup
      cases call with
      | requestAccess auth req =>
          intro hresolves
          obtain ⟨hsession, -, hrate⟩ := hspares hresolves
          exact ⟨hsession, ids, hrate⟩
      | check auth req => exact hspares
      | _ => exact hspares

/-- In a run of two agents' access calls, with ids that differ between them, the first is
answered as in the run without the second if the second's calls stay apart. -/
theorem transcript_isOf
    (calls : ∀ input ∈ inputs, input.isAccess = true ∧
      (input.caller = some agent ∨ input.caller = some other))
    (ids : ∀ input ∈ inputs, ∀ input' ∈ inputs, input.caller = some agent →
      input'.caller = some other → ∀ m n, input.tape.uuid m ≠ input'.tape.uuid n)
    (apart : DroppedMeet (World.step p) (Input.isOf agent) (World.StaysApart p agent) w inputs) :
    (transcript (World.step p) (World.answer p) w inputs).filter
        (fun answered => answered.1.isOf agent) =
      transcript (World.step p) (World.answer p) w (inputs.filter (Input.isOf agent)) := by
  have hids : DroppedMeet (World.step p) (Input.isOf agent) (fun _ input rest =>
      ∀ n, input.tape.uuid n ∉ (footprintOf (Input.isOf agent) rest).ids) w inputs := by
    apply DroppedMeet.of_forall
    rintro done input rest rfl hdropped _ n ⟨next, hnext, hkept, hid⟩
    have hother : input.caller = some other := by
      apply (calls input (by simp)).2.resolve_left
      intro hagent
      rw [Input.isOf, hagent] at hdropped
      simp at hdropped
    have hagent : next.caller = some agent := beq_iff_eq.mp hkept
    have haccess := (calls next (by simp [hnext])).1
    obtain ⟨⟨call⟩ | _, arrival, tape⟩ := next
    · obtain ⟨m, hm⟩ := hid
      exact ids _ (by simp [hnext]) input (by simp) hagent hother m n hm
    · cases haccess
  refine transcript_access (fun input hinput => (calls input hinput).1) ?_
  exact (apart.and hids).mono fun w input rest h => h.1.of_ids h.2

end

/-- A server that asks for approval, once in a session, and knows two agents. -/
def sharedWorld : World where
  app := ⟨{ Db.empty with agents := [registeredAgent, { registeredAgent with id := ⟨301⟩ }] },
    ⟨[{ Rule.plain "require_approval" "test" with maxActionsInSession := some 1 }]⟩, ∅, .new⟩
  ledger := []
  up := true
  clock := 0

/-- A request of an agent in a session. -/
def accessIn (session : String) (agent : Uuid) : AccessRequest :=
  ⟨agent, "read", "db", ["db:read"], none, some ⟨some session⟩⟩

/-- The second agent asks for access in a session, and then the first in another. -/
def neighbours (session session' : String) : List Input := [
  .drawing ⟨500⟩ (.call (.requestAccess (some ⟨301⟩) (accessIn session ⟨301⟩))),
  .drawing ⟨600⟩ (.call (.requestAccess (some ⟨300⟩) (accessIn session' ⟨300⟩)))]

section

variable {session session' : String}

theorem neighbours_calls : ∀ input ∈ neighbours session session', input.isAccess = true ∧
    (input.caller = some ⟨300⟩ ∨ input.caller = some ⟨301⟩) := by
  intro input hinput
  obtain rfl | rfl : input = _ ∨ input = _ := by simpa [neighbours] using hinput
  · exact ⟨rfl, .inr rfl⟩
  · exact ⟨rfl, .inl rfl⟩

theorem neighbours_ids : ∀ input ∈ neighbours session session', ∀ input' ∈
    neighbours session session', input.caller = some ⟨300⟩ → input'.caller = some ⟨301⟩ →
      ∀ m n, input.tape.uuid m ≠ input'.tape.uuid n := by
  intro input hinput input' hinput' hcaller hcaller' m n
  obtain rfl | rfl : input = _ ∨ input = _ := by simpa [neighbours] using hinput
  · simp [Input.caller, Call.caller, Input.drawing] at hcaller
  · obtain rfl | rfl : input' = _ ∨ input' = _ := by simpa [neighbours] using hinput'
    · simp [Input.drawing]
    · simp [Input.caller, Call.caller, Input.drawing] at hcaller'

end

theorem transcript_isOf_neighbours :
    (transcript (World.step .unsigned) (World.answer .unsigned) sharedWorld
        (neighbours "s" "t")).filter (fun answered => answered.1.isOf ⟨300⟩) =
      transcript (World.step .unsigned) (World.answer .unsigned) sharedWorld
        ((neighbours "s" "t").filter (Input.isOf ⟨300⟩)) := by
  refine transcript_isOf neighbours_calls neighbours_ids ⟨fun _ _ _ => ?_, nofun, trivial⟩
  have hsession : "s" ≠ "t" := by decide
  have hrate : Rule.rateLimitKey "s" "read" "db" ≠ Rule.rateLimitKey "t" "read" "db" := by decide
  refine ⟨?_, fun n hid => hid, fun _ => ?_⟩
  · rintro ⟨input, hinput, -, hkey⟩
    rw [List.mem_singleton.mp hinput] at hkey
    exact hsession hkey
  · rintro ⟨input, hinput, -, hkey⟩
    rw [List.mem_singleton.mp hinput] at hkey
    exact hrate hkey

/-- Isolation as a promise about every run of two agents. -/
def AgentsIsolated (p : Platform) (w : World) : Prop :=
  ∀ agent other : Uuid, agent ≠ other → ∀ inputs : List Input,
    (∀ input ∈ inputs, input.isAccess = true ∧
      (input.caller = some agent ∨ input.caller = some other)) →
    (∀ input ∈ inputs, ∀ input' ∈ inputs, input.caller = some agent →
      input'.caller = some other → ∀ m n, input.tape.uuid m ≠ input'.tape.uuid n) →
    ((transcript (World.step p) (World.answer p) w inputs).filter
        (fun answered => answered.1.isOf agent)).map (fun answered => answerDecision answered.2) =
      (transcript (World.step p) (World.answer p) w (inputs.filter (Input.isOf agent))).map
        (fun answered => answerDecision answered.2)

/-- Two agents share a session, in which the rule asks for approval once. -/
theorem not_agentsIsolated : ¬ AgentsIsolated .unsigned sharedWorld := by
  intro h
  have hanswers := h ⟨300⟩ ⟨301⟩ (by decide) (neighbours "s" "s") neighbours_calls neighbours_ids
  revert hanswers
  decide

end Patroclus
