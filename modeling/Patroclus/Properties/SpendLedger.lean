import Patroclus.Api.Standing
import Patroclus.Foundation.Unwinding
import Patroclus.Foundation.Run
import Mathlib.Algebra.Order.Field.Rat

/-!
# The spend of a session

A spend is recorded by one endpoint and compared with the caps of the policy by
another, which is also the one that opens sessions. An amount for a session that has
not been opened yet is acknowledged like any other, and nothing keeps it: the spend of
a session is what has been acknowledged for it exactly if no amount comes before the
session.
-/

namespace Patroclus

open Foundation

/-- An access request, or a recorded spend of an amount that is not negative. -/
def Input.Spends (input : Input) : Prop :=
  (∃ auth req, input.event = .call (.requestAccess auth req)) ∨
    ∃ id amount sessionId, 0 ≤ amount ∧
      input.event = .call (.recordSpend id (.finite amount) sessionId)

/-- The session that a spend is recorded for. -/
def spendKey (id : Uuid) (sessionId : Option String) : String :=
  sessionId.getD (defaultSessionId id)

/-- The amount that an answer acknowledges for a session. -/
def amountFor (key : String) (answered : Input × Except Failure Reply) : ℚ :=
  match answered.1.event, answered.2 with
  | .call (.recordSpend id (.finite amount) sessionId), .ok _ =>
      if spendKey id sessionId = key then amount else 0
  | _, _ => 0

/-- What a run acknowledges for a session. -/
def World.acknowledged (p : Platform) (w : World) (inputs : List Input) (key : String) : ℚ :=
  ((transcript (World.step p) (World.answer p) w inputs).map (amountFor key)).sum

/-- An amount other than zero is for a session that exists. -/
def Input.FindsSession (w : World) (input : Input) : Prop :=
  ∀ id amount sessionId, input.event = .call (.recordSpend id amount sessionId) → amount = 0 ∨
    (w.app.sessionStore.sessions.lookup (spendKey id sessionId)).isSome = true

/-- Throughout a run, the spend of every session is what has been acknowledged for it, and a
request is denied when the rule that comes first has a cap that this sum has reached. -/
structure SpendKept (p : Platform) (w : World) (inputs : List Input) : Prop where
  total : ∀ done, done <+: inputs → ∀ key,
    ((w.run p done).app.sessionStore.standing key).spendTotal = .finite (w.acknowledged p done key)
  capped : ∀ done input, done ++ [input] <+: inputs → ∀ auth req response (rule : Rule) cap,
    input.event = .call (.requestAccess auth req) →
    (w.run p done).answer p input = .ok (.access response) →
    rule.ComesFirstFor (w.run p done).app req → rule.maxSpend = some cap →
    (F64.finite (w.acknowledged p done req.sessionKey)).ge cap = true → response.decision = "deny"

section

variable {p : Platform} {w : World} {inputs done : List Input} {input : Input}

theorem World.acknowledged_concat (key : String) : w.acknowledged p (done ++ [input]) key =
    w.acknowledged p done key + amountFor key (input, (w.run p done).answer p input) := by
  unfold World.acknowledged
  rw [transcript_concat, List.map_append, List.sum_append, List.map_singleton, List.sum_singleton]
  rfl

/-- An access request changes no spend. -/
theorem World.spendTotal_step_requestAccess {auth : Option Uuid} {req : AccessRequest}
    (event : input.event = .call (.requestAccess auth req)) (up : w.up = true) (key : String) :
    ((w.step p input).app.sessionStore.standing key).spendTotal =
      (w.app.sessionStore.standing key).spendTotal := by
  rw [World.standing_step event up, serve, reply_state]
  obtain ⟨-, hkept⟩ | ⟨decision, timestamp, -, hentered⟩ :=
    requestAccess_standing p auth req (w.serving input.tape)
  · rw [hkept]
    rfl
  · rw [hentered]
    by_cases hkey : key = req.sessionKey
    · rw [hkey, Function.update_self]
      rfl
    · rw [Function.update_of_ne hkey]
      rfl

/-- A recorded spend is added to its session, if there is one. -/
theorem World.standing_step_recordSpend {id : Uuid} {amount : F64} {sessionId : Option String}
    (event : input.event = .call (.recordSpend id amount sessionId)) (up : w.up = true) :
    (∃ reply, w.answer p input = .ok reply) ∧ (w.step p input).app.sessionStore.standing =
      if (w.app.sessionStore.sessions.lookup (spendKey id sessionId)).isSome then
        Function.update w.app.sessionStore.standing (spendKey id sessionId)
          ((w.app.sessionStore.standing (spendKey id sessionId)).spend amount)
      else w.app.sessionStore.standing := by
  refine ⟨?_, ?_⟩
  · simp only [World.answer, World.reply, event, up, if_true]
    exact ⟨_, rfl⟩
  · rw [World.standing_step event up]
    exact SessionStore.standing_modifyAt (fun _ => rfl) _ _

/-- The spend of every session after one more input is what has then been acknowledged for
it exactly if the input finds its session. -/
theorem World.spendTotal_concat_iff (spends : input.Spends) (up : (w.run p done).up = true)
    (kept : ∀ key, ((w.run p done).app.sessionStore.standing key).spendTotal =
      .finite (w.acknowledged p done key)) :
    (∀ key, ((w.run p (done ++ [input])).app.sessionStore.standing key).spendTotal =
      .finite (w.acknowledged p (done ++ [input]) key)) ↔ input.FindsSession (w.run p done) := by
  have hrun : w.run p (done ++ [input]) = (w.run p done).step p input := List.foldl_append
  rw [hrun]
  simp only [World.acknowledged_concat]
  obtain ⟨auth, req, hevent⟩ | ⟨id, amount, sessionId, -, hevent⟩ := spends
  · have hfinds : input.FindsSession (w.run p done) := by
      intro id amount sessionId hspend
      rw [hevent] at hspend
      cases hspend
    refine iff_of_true (fun key => ?_) hfinds
    have hnothing : amountFor key (input, (w.run p done).answer p input) = 0 := by
      simp only [amountFor, hevent]
    rw [World.spendTotal_step_requestAccess hevent up, kept, hnothing, add_zero]
  · obtain ⟨⟨reply, hreply⟩, hstanding⟩ := World.standing_step_recordSpend (p := p) hevent up
    have hamount (key : String) : amountFor key (input, (w.run p done).answer p input) =
        if spendKey id sessionId = key then amount else 0 := by
      simp only [amountFor, hevent, hreply]
    simp only [hstanding, hamount]
    constructor
    · intro h id' amount' sessionId' hspend
      rw [hevent] at hspend
      cases hspend
      have hkey := h (spendKey id sessionId)
      split at hkey
      · rename_i hopen
        exact .inr hopen
      · rw [kept, if_pos rfl] at hkey
        have hzero : amount = 0 := by simpa using hkey
        rw [hzero]
        exact .inl rfl
    · intro hfinds key
      split
      · by_cases hkey : key = spendKey id sessionId
        · rw [hkey, Function.update_self, if_pos rfl, Standing.spend, kept]
          rfl
        · rw [Function.update_of_ne hkey, if_neg (Ne.symm hkey), kept, add_zero]
      · rename_i hmissing
        obtain hzero | hopen := hfinds id (.finite amount) sessionId hevent
        · have hzero : amount = 0 := F64.finite.inj hzero
          rw [kept, hzero, ite_self, add_zero]
        · exact absurd hopen hmissing

theorem Input.Spends.isCall (h : input.Spends) : ∃ call, input.event = .call call := by
  obtain ⟨auth, req, hevent⟩ | ⟨id, amount, sessionId, -, hevent⟩ := h
  · exact ⟨_, hevent⟩
  · exact ⟨_, hevent⟩

/-- A request is denied when the rule that comes first has a cap that the spend has reached. -/
theorem World.denied_of_spent {auth : Option Uuid} {req : AccessRequest} {response : AccessResponse}
    {rule : Rule} {cap total : F64} (up : w.up = true)
    (event : input.event = .call (.requestAccess auth req))
    (answered : w.answer p input = .ok (.access response)) (first : rule.ComesFirstFor w.app req)
    (capped : rule.maxSpend = some cap)
    (spent : (w.app.sessionStore.standing req.sessionKey).spendTotal = total)
    (reached : total.ge cap = true) : response.decision = "deny" := by
  have hreply : w.reply p (.requestAccess auth req) input.tape = .ok (.access response) := by
    simpa only [World.answer, event] using answered
  obtain ⟨finish, hserve⟩ := (World.reply_eq_ok up).mp hreply
  obtain ⟨response', s, hrun, hpure⟩ := Action.bind_ok_iff.mp hserve
  cases hpure
  apply requestAccess_refused hrun first
  intro hallows
  have hbelow := hallows.spend cap capped
  have hsession := congrArg Standing.spendTotal
    (SessionStore.standing_sessionFor w.app.sessionStore req)
  have htotal : (w.app.sessionStore.sessionFor req).spendTotal = total := hsession.trans spent
  have hbelow : total.ge cap = false := htotal ▸ hbelow
  rw [reached] at hbelow
  cases hbelow

/-- In a run over no sessions the spends are what has been acknowledged, and the caps hold,
exactly if every amount other than zero is recorded for a session that exists. -/
theorem spendKept_iff (up : w.up = true) (start : w.app.sessionStore.sessions = ∅)
    (spends : ∀ input ∈ inputs, input.Spends) :
    SpendKept p w inputs ↔
      Along (World.step p) (fun w input => input.FindsSession w) w inputs := by
  have hup (done : List Input) (hdone : done <+: inputs) : (w.run p done).up = true :=
    World.up_run up fun input hinput => (spends input (hdone.subset hinput)).isCall
  have htotal : Along (World.step p) (fun w input => input.FindsSession w) w inputs ↔
      ∀ done, done <+: inputs → ∀ key,
        ((w.run p done).app.sessionStore.standing key).spendTotal =
          .finite (w.acknowledged p done key) := by
    apply Along.iff_history
    · intro done input hdone hkept
      have hinput := spends input (hdone.subset (List.mem_append_right _ List.mem_cons_self))
      exact World.spendTotal_concat_iff hinput
        (hup done ((List.prefix_append done [input]).trans hdone)) hkept
    · intro key
      rw [SessionStore.standing_of_missing (by rw [World.run, List.foldl_nil, start]; rfl)]
      rfl
  rw [htotal]
  refine ⟨fun h => h.total, fun h => ⟨h, ?_⟩⟩
  intro done input hdone auth req response rule cap hevent hanswer hfirst hcap hreached
  have hbefore := (List.prefix_append done [input]).trans hdone
  exact World.denied_of_spent (hup done hbefore) hevent hanswer hfirst hcap
    (h done hbefore req.sessionKey) hreached

end

/-- The agent asks for access in its default session. -/
def openingSession : Input :=
  .steady (.call (.requestAccess (some ⟨300⟩) readDatabase)) opening 500

/-- Ten are spent in the default session of the agent. -/
def spending : Input := .steady (.call (.recordSpend ⟨300⟩ (.finite 10) none)) opening 600

theorem spendKept_opening :
    SpendKept delegationPlatform enrolledWorld [openingSession, spending] := by
  refine (spendKept_iff rfl rfl ?_).mpr ⟨?_, ?_, trivial⟩
  · intro input hinput
    rcases List.mem_pair.mp hinput with rfl | rfl
    · exact .inl ⟨_, _, rfl⟩
    · exact .inr ⟨_, _, _, by decide, rfl⟩
  · intro id amount sessionId h
    cases h
  · intro id amount sessionId h
    cases h
    exact .inr (by decide +kernel)

/-- The accounting as a promise about all runs. -/
def SpendsAccounted : Prop :=
  ∀ (p : Platform) (w : World) (inputs : List Input), w.up = true →
    w.app.sessionStore.sessions = ∅ → (∀ input ∈ inputs, input.Spends) → SpendKept p w inputs

/-- The amount comes before the session and is dropped. -/
theorem not_spendsAccounted : ¬ SpendsAccounted := by
  intro h
  have hspends : ∀ input ∈ [spending], input.Spends := by
    intro input hinput
    rw [List.mem_singleton.mp hinput]
    exact .inr ⟨_, _, _, by decide, rfl⟩
  have hkept := h delegationPlatform enrolledWorld [spending] rfl rfl hspends
  have hbefore := hkept.total [] (List.nil_prefix)
  have hafter := hkept.total [spending] List.prefix_rfl
  have hfinds := (World.spendTotal_concat_iff (hspends _ List.mem_cons_self) rfl hbefore).mp hafter
  obtain hzero | hopen := hfinds _ _ _ rfl
  · exact absurd hzero (by decide)
  · exact absurd hopen (by decide +kernel)

end Patroclus
