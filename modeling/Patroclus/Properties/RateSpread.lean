import Patroclus.Api.Metering
import Patroclus.Properties.DefaultDeny

/-!
# Calls spread over sessions

The window in which a call is counted belongs to its session, and the session is named by
the client. Calls that would exhaust a rate limit in one session find a new window in every
other one. To spread calls over sessions gains nothing if they do not run into a limit where
they all come in one session; or if only one of them does, whose rule asks for an earlier
action like it, and there is no other call that it could have followed.
-/

namespace Patroclus

open Foundation

/-- The rule that comes first for the call asks for its own action as a prior action. -/
def AccessCall.AsksForItself (app : AppState) (action : String) (call : AccessCall) : Prop :=
  ∃ rule, app.firstRule call.req = some rule ∧ rule.requirePriorAction = some action

/-- A running server on which no session has been opened and nothing has been counted. -/
structure World.Unasked (w : World) : Prop where
  up : w.up = true
  sessions : w.app.sessionStore.sessions = ∅
  rateLimits : w.app.sessionStore.rateLimits = ∅

section

variable {p : Platform} {w : World} {app : AppState} {call : AccessCall}
  {calls : List AccessCall} {agentId : Uuid} {action resource sessionId : String}
  {sessionIds : List String} {meter : Meter} {n : Nat}

/-! ## Rules and meters -/

theorem Rule.allowsAfter_iff {rule : Rule} : rule.allowsAfter action n = true ↔
    (∀ maxActions, rule.maxActionsInSession = some maxActions → n < maxActions) ∧
    (∀ maxSpend, rule.maxSpend = some maxSpend → F64.ge 0 maxSpend = false) ∧
    (∀ minTrust, rule.minTrustLevel = some minTrust → F64.ge 1 minTrust = true) ∧
    ∀ prior, rule.requirePriorAction = some prior → 0 < n ∧ prior = action := by
  simp only [allowsAfter, Bool.and_eq_true, Option.all_eq_true, decide_eq_true_iff,
    beq_iff_eq, Bool.not_eq_true', and_assoc]

/-- A call whose rule asks for its own action is refused first. -/
theorem AccessCall.AsksForItself.waits (h : call.AsksForItself app action) :
    (Meter.acceptor app action).Waits call := by
  intro meter hzero
  rw [← Bool.not_eq_true]
  intro hallows
  obtain ⟨rule, hfirst, hasks⟩ := h
  obtain ⟨rule', hfirst', -, hafter, -⟩ := Meter.allows_iff.mp hallows
  obtain rfl := Option.some.inj (hfirst.symm.trans hfirst')
  obtain ⟨-, -, -, hprior⟩ := Rule.allowsAfter_iff.mp hafter
  exact absurd hzero (hprior action hasks).1.ne'

theorem World.Unasked.metered (unasked : w.Unasked) (key action resource : String) :
    w.app.sessionStore.Metered key action resource .zero where
  session := by
    rw [SessionStore.ChargedAt, unasked.sessions]
    rfl
  window := by
    rw [unasked.rateLimits]
    rfl

end

end Patroclus
