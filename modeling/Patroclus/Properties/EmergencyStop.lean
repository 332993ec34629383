import Patroclus.Api.Delegation

/-!
# The emergency stop

From the stop of an agent to its restoration, `request_access` and `check_access`
deny every call of the agent, whatever session or token the call carries.
`delegate` does not look at the stop: it still signs children of the grants that
the agent holds. A call of a stopped agent is denied exactly when it is not such
a delegation.
-/

namespace Patroclus

open Foundation

/-- A call to `request_access`, `check_access` or `delegate` authenticated as an agent. -/
def Call.IsBy (agentId : Uuid) : Call → Prop
  | .requestAccess auth _ | .check auth _ | .delegate auth _ => auth = some agentId
  | _ => False

/-- An answer that lets the caller through: a positive decision, or a delegated grant. -/
def Reply.Allows : Reply → Prop
  | .access response => response.decision = "allow" ∨ response.token.isSome
  | .check response => response.allowed = true ∨ response.decision = "allow"
  | .delegation _ => True
  | _ => False

/-- The call is not answered positively, and no token is signed or recorded for it. -/
structure World.Denies (p : Platform) (w : World) (call : Call) (input : Input) : Prop where
  answer : ∀ reply, w.reply p call input.tape = .ok reply → ¬ reply.Allows
  ledger : (w.step p input).ledger = w.ledger
  tokens : (w.step p input).app.db.tokens = w.app.db.tokens

/-- Inputs that neither lift the stop of an agent nor lose it in a restart. -/
def Input.KeepsStop (agentId : Uuid) (input : Input) : Prop :=
  input.event ≠ .restart ∧ input.event ≠ .call (.restoreAgent agentId)

/-- A running server that has stopped an agent. -/
structure World.Stopped (agentId : Uuid) (w : World) : Prop where
  up : w.up = true
  stopped : agentId ∈ w.app.sessionStore.killedAgents

section

variable {p : Platform} {w : World} {agentId : Uuid} {input : Input} {call : Call}

/-! ## The stop lasts -/

theorem World.Stopped.of_killAgent (up : w.up = true)
    (event : input.event = .call (.killAgent agentId)) :
    (w.step p input).Stopped agentId := by
  refine ⟨World.up_step_call event up, ?_⟩
  have hguarded : (w.step p input).guarded = (killAgent agentId (w.serving input.tape)).2.guarded :=
    (World.guarded_step_call event up).trans (by rw [serve, reply_state])
  have hstopped : agentId ∈ (w.step p input).guarded.killedAgents := by
    rw [hguarded, killAgent_effect]
    exact Finset.mem_insert_self _ _
  exact hstopped

/-- Only the restoration of the agent and a restart can lift its stop. -/
theorem World.Stopped.step (h : w.Stopped agentId) (keeps : input.KeepsStop agentId) :
    (w.step p input).Stopped agentId := by
  obtain ⟨hrestart, hrestore⟩ := keeps
  refine ⟨?_, ?_⟩
  · cases hevent : input.event with
    | restart => exact absurd hevent hrestart
    | call call => exact World.up_step_call hevent h.up
  · have hstopped : agentId ∈ w.guarded.killedAgents := h.stopped
    change agentId ∈ (w.step p input).guarded.killedAgents
    have heffect := World.step_effect (p := p) w input
    generalize (w.step p input).guarded = after at heffect ⊢
    cases heffect with
    | kept => exact hstopped
    | access _ _ _ mints | delegation _ _ _ mints | grant _ _ _ mints =>
        rw [mints.killedAgents]
        exact hstopped
    | revoked => exact hstopped
    | stopped => exact Finset.mem_insert_of_mem hstopped
    | restored event =>
        refine Finset.mem_erase.mpr ⟨?_, hstopped⟩
        rintro rfl
        exact hrestore event
    | restarted event => exact absurd event hrestart

theorem World.Stopped.run {later : List Input} (h : w.Stopped agentId)
    (keeps : ∀ input ∈ later, input.KeepsStop agentId) : (w.run p later).Stopped agentId :=
  Along.invariant (fun _ _ hw hinput => hw.step hinput) h
    (.of_forall fun input hmem _ => keeps input hmem)

/-! ## What a stopped agent can obtain -/

theorem requestAccess_stopped (req : AccessRequest) {s : Serving}
    (stopped : agentId ∈ s.app.sessionStore.killedAgents) :
    (requestAccess p (some agentId) req s).2.guarded = s.guarded ∧
      ∀ response finish, requestAccess p (some agentId) req s = (.ok response, finish) →
        response.decision = "deny" ∧ response.token = none := by
  have absurd_alive {caller : Caller} {s₁ : Serving}
      (hresolve : resolveCaller p (some agentId) req s = (.ok caller, s₁))
      (halive : caller.agent.id ∉ s₁.app.sessionStore.killedAgents) : False := by
    have hcaller := resolveCaller_resolved hresolve
    have hguarded : s₁.guarded = s.guarded :=
      (keeps_resolveCaller tickFree_guarded ignoresSessions_guarded _ _).eq hresolve
    have hkilled : s₁.app.sessionStore.killedAgents = s.app.sessionStore.killedAgents :=
      congrArg Guarded.killedAgents hguarded
    rw [hkilled, hcaller.agentId, ← Option.some.inj hcaller.authenticated] at halive
    exact halive stopped
  refine ⟨?_, fun response finish run => ?_⟩
  · rcases requestAccess_effect (p := p) (some agentId) req s with
      hkept | ⟨caller, s₁, eval, s₂, minted, hallowed, -, -⟩
    · exact hkept
    · exact (absurd_alive hallowed.resolved hallowed.agentAlive).elim
  · rcases requestAccess_eq_ok.mp run with ⟨caller, -, -, rfl⟩ | ⟨caller, -, -, -, rfl⟩ |
      ⟨caller, s₁, eval, s₂, s₃, hdecided⟩
    · exact ⟨rfl, rfl⟩
    · exact ⟨rfl, rfl⟩
    · exact (absurd_alive hdecided.resolved hdecided.agentAlive).elim

theorem checkAccess_stopped {req : AccessRequest} {s finish : Serving} {response : CheckResponse}
    (stopped : agentId ∈ s.app.sessionStore.killedAgents)
    (run : checkAccess p (some agentId) req s = (.ok response, finish)) :
    response.allowed = false ∧ response.decision = "deny" := by
  obtain ⟨hauth, agent, s₁, -, ⟨-, rfl⟩ | ⟨halive, -⟩⟩ := checkAccess_ok run
  · exact ⟨rfl, rfl⟩
  · rw [← Option.some.inj hauth] at halive
    exact absurd stopped halive

/-- A call that leaves the guarded part alone and answers nothing positive is denied. -/
theorem World.denies_of_kept (up : w.up = true) (event : input.event = .call call)
    (kept : (serve p call (w.serving input.tape)).2.guarded = w.guarded)
    (answer : ∀ reply finish, serve p call (w.serving input.tape) = (.ok reply, finish) →
      ¬ reply.Allows) : w.Denies p call input := by
  have hguarded : (w.step p input).guarded = w.guarded :=
    (World.guarded_step_call event up).trans kept
  refine ⟨fun reply hreply => ?_, congrArg Guarded.ledger hguarded,
    congrArg Guarded.tokens hguarded⟩
  obtain ⟨finish, hserve⟩ := (World.reply_eq_ok up).mp hreply
  exact answer reply finish hserve

theorem World.Stopped.denies_delegate_iff {req : DelegateRequest} (h : w.Stopped agentId)
    (event : input.event = .call (.delegate (some agentId) req)) :
    w.Denies p (.delegate (some agentId) req) input ↔ ¬ ∃ claims expiry minted,
      ChildSigned p agentId req (w.serving input.tape) claims expiry minted := by
  constructor
  · rintro hdenies ⟨claims, expiry, minted, hsigned⟩
    have hledger : (w.step p input).ledger = w.ledger ++ [minted] :=
      (congrArg Guarded.ledger (World.guarded_step_call event h.up)).trans (by
        rw [serve, reply_state]
        exact ledger_of_childSigned hsigned)
    rw [hdenies.ledger] at hledger
    simpa using congrArg List.length hledger
  · intro hunsigned
    refine World.denies_of_kept h.up event ?_ fun reply finish hserve => ?_
    · rw [serve, reply_state]
      rcases delegate_signs (p := p) (some agentId) req (w.serving input.tape) with
        hkept | ⟨presenter, claims, expiry, minted, hauth, hsigned, -⟩
      · exact hkept
      · cases hauth
        exact absurd ⟨claims, expiry, minted, hsigned⟩ hunsigned
    · obtain ⟨response, middle, hdelegate, -⟩ := Action.bind_ok_iff.mp hserve
      obtain ⟨presenter, claims, expiry, minted, hauth, hsigned, -⟩ := delegate_ok hdelegate
      cases hauth
      exact absurd ⟨claims, expiry, minted, hsigned⟩ hunsigned

/-- After the stop of an agent, and until it is restored or the server restarts, each
call of the agent is denied exactly if it is not a delegation of a grant that still
verifies for it. -/
theorem denies_after_killAgent_iff {kill : Input} {later : List Input} (up : w.up = true)
    (killed : kill.event = .call (.killAgent agentId))
    (since : ∀ input ∈ later, input.KeepsStop agentId) (event : input.event = .call call)
    (caller : call.IsBy agentId) :
    ((w.step p kill).run p later).Denies p call input ↔
      ¬ ∃ req claims expiry minted, call = .delegate (some agentId) req ∧
        ChildSigned p agentId req (((w.step p kill).run p later).serving input.tape) claims expiry
          minted := by
  have hstopped := (World.Stopped.of_killAgent (p := p) up killed).run (p := p) since
  generalize (w.step p kill).run p later = after at hstopped ⊢
  cases call with
  | requestAccess auth req =>
      obtain rfl : auth = some agentId := caller
      obtain ⟨hkept, hanswer⟩ :=
        requestAccess_stopped (p := p) req (s := after.serving input.tape) hstopped.stopped
      refine iff_of_true (World.denies_of_kept hstopped.up event ?_ fun reply finish hserve => ?_)
        (by rintro ⟨_, _, _, _, hcall, -⟩; cases hcall)
      · rw [serve, reply_state]
        exact hkept
      · obtain ⟨response, middle, hrun, hpure⟩ := Action.bind_ok_iff.mp hserve
        cases hpure
        obtain ⟨hdecision, htoken⟩ := hanswer response _ hrun
        simp [Reply.Allows, hdecision, htoken]
  | check auth req =>
      obtain rfl : auth = some agentId := caller
      refine iff_of_true (World.denies_of_kept hstopped.up event ?_ fun reply finish hserve => ?_)
        (by rintro ⟨_, _, _, _, hcall, -⟩; cases hcall)
      · rw [serve, reply_state]
        exact keeps_checkAccess _ _ _
      · obtain ⟨response, middle, hrun, hpure⟩ := Action.bind_ok_iff.mp hserve
        cases hpure
        obtain ⟨hallowed, hdecision⟩ := checkAccess_stopped hstopped.stopped hrun
        simp [Reply.Allows, hallowed, hdecision]
  | delegate auth req =>
      obtain rfl : auth = some agentId := caller
      rw [hstopped.denies_delegate_iff event]
      refine not_congr ⟨?_, ?_⟩
      · rintro ⟨claims, expiry, minted, hsigned⟩
        exact ⟨req, claims, expiry, minted, rfl, hsigned⟩
      · rintro ⟨req', claims, expiry, minted, hcall, hsigned⟩
        cases hcall
        exact ⟨claims, expiry, minted, hsigned⟩
  | _ => exact caller.elim

end

/-- The stop of the enrolled agent, which holds a root grant. -/
def stopping : Input := .steady (.call (.killAgent ⟨300⟩)) opening 450

def grantedWorld : World := initialWorld.run delegationPlatform (enrolment ++ [granting])

def checking : Call := .check (some ⟨300⟩) ⟨⟨300⟩, "read", "db", ["read"], none, none⟩

/-- A check of the stopped agent is denied. -/
theorem denies_checking : ((grantedWorld.step delegationPlatform stopping).run delegationPlatform
    []).Denies delegationPlatform checking (.steady (.call checking) opening 600) := by
  refine (denies_after_killAgent_iff (by decide) rfl (by simp) rfl
    (show checking.IsBy ⟨300⟩ from rfl)).mpr ?_
  rintro ⟨_, _, _, _, hcall, -⟩
  cases hcall

/-- The stop as a promise about every call of the agent. -/
def EmergencyStop (p : Platform) (agentId : Uuid) : Prop :=
  ∀ (before later : List Input) (kill input : Input) (call : Call),
    (initialWorld.run p before).up = true → kill.event = .call (.killAgent agentId) →
    (∀ input ∈ later, input.KeepsStop agentId) → input.event = .call call → call.IsBy agentId →
    (((initialWorld.run p before).step p kill).run p later).Denies p call input

/-- A stopped agent delegates the grant that it still holds, and receives a child. -/
theorem not_emergencyStop : ¬ ∀ p agentId, EmergencyStop p agentId := by
  intro h
  have hdenies := h delegationPlatform ⟨300⟩ (enrolment ++ [granting]) []
    stopping (.steady (.call delegating) opening 500) delegating
    (by decide) rfl (by simp) rfl rfl
  have hledger := congrArg List.length hdenies.ledger
  revert hledger
  decide

end Patroclus
