import Patroclus.Api.Minting
import Patroclus.Foundation.Run

/-!
# What one step of the server can do

`World.Effect` lists everything that an input can do to the guarded part of the
world: nothing, a mint by one of the three minting calls, a revocation, an
emergency stop, its lifting, or the loss of memory in a restart. Invariants over
runs are derived from it, one case each.
-/

namespace Patroclus

open Foundation

section

variable {p : Platform}

/-- Wrapping an answer changes no state. -/
theorem reply_state {α β : Type} (act : Handler α) (wrap : α → β) (s : Serving) :
    ((act >>= fun a => pure (wrap a)) s).2 = (act s).2 := by
  rcases hact : act s with ⟨outcome, finish⟩
  cases outcome with
  | ok a => rw [Action.bind_run_ok hact, Action.pure_run]
  | error e => rw [Action.bind_run_error hact]

/-- Wrapping the answer of a handler wraps its outcome and changes no state. -/
theorem wp_wrap {α β : Type} {act : Handler α} {wrap : α → β} {s : Serving}
    {post : Except Failure β → Serving → Prop}
    (h : act.WP (fun outcome finish => post (outcome.map wrap) finish) s) :
    (act >>= fun a => pure (wrap a)).WP post s := by
  apply Action.WP.bind_of
  · intro a middle hact
    rw [Action.WP, hact] at h
    exact h
  · intro e finish hact
    rw [Action.WP, hact] at h
    exact h

/-! ## Revocation and the emergency stop -/

/-- The rows of the tokens table after an update that revokes some of them. -/
def revokeRows (cond : TokenRow → Bool) (rows : List TokenRow) : List TokenRow :=
  Db.updateWhere cond Db.revokedRow rows

theorem mem_revokeRows {cond : TokenRow → Bool} {rows : List TokenRow} {row : TokenRow} :
    row ∈ revokeRows cond rows ↔
      ∃ old ∈ rows, (if cond old then Db.revokedRow old else old) = row :=
  List.mem_map

theorem revokeTokenByJti_effect (jti : String) (s : Serving) :
    (revokeTokenByJti jti s).2.guarded = s.guarded ∨
      (revokeTokenByJti jti s).2.guarded = { s.guarded with
        jtiStore := insert jti s.guarded.jtiStore
        tokens := revokeRows (·.id == jti) s.guarded.tokens } := by
  rcases hsql : Database.revokeToken jti s with ⟨outcome, finish⟩
  cases outcome with
  | error e =>
      rw [revokeTokenByJti, Action.bind_run_error hsql, sql_eq_error hsql]
      exact .inl rfl
  | ok done =>
      obtain ⟨-, db, hdb, rfl⟩ := sql_eq_ok.mp hsql
      cases hdb
      rw [revokeTokenByJti, Action.bind_run_ok hsql]
      exact .inr rfl

/-- The rows after the database part of an emergency stop, which marks the tokens of
the agent unless its statement fails. -/
def stopRows (id : Uuid) (fault : Option String) (rows : List TokenRow) : List TokenRow :=
  match fault with
  | some _ => rows
  | none => revokeRows (fun row => row.agentId == id && !row.revoked) rows

theorem revokeAgentTokens_effect (id : Uuid) (s : Serving) :
    (Database.revokeAgentTokens id s).2.guarded = { s.guarded with
      tokens := stopRows id (s.tape.fault s.tick) s.guarded.tokens } := by
  rw [Database.revokeAgentTokens, sql]
  cases s.tape.fault s.tick with
  | some message => rfl
  | none => rfl

theorem killAgent_effect (id : Uuid) (s : Serving) :
    (killAgent id s).2.guarded = { s.guarded with
      killedAgents := insert id s.guarded.killedAgents
      tokens := stopRows id (s.tape.fault s.tick) s.guarded.tokens } := by
  let s₁ := s.withApp fun app => { app with sessionStore := app.sessionStore.killAgent id }
  have hrun : (killAgent id s).2 = (Database.revokeAgentTokens id s₁).2 :=
    reply_state (Database.revokeAgentTokens id) _ s₁
  rw [hrun, revokeAgentTokens_effect]
  rfl

theorem startUp_effect (s : Serving) : (startUp p s).2.guarded = { s.guarded with
    killedAgents := ∅, jtiStore := ∅ } :=
  startUp_view tickFree_guarded (fun _ _ => rfl) (fun _ _ => rfl) s

/-! ## Steps -/

/-- What an input does to the guarded part of the world. -/
inductive World.Effect (p : Platform) (w : World) (input : Input) : Guarded → Prop where
  | kept {call : Call} (event : input.event = .call call)
      (other : w.up = true → ∀ id, call ≠ .killAgent id) : Effect p w input w.guarded
  | access {auth : Option Uuid} {req : AccessRequest} {caller : Caller} {s₁ s₂ : Serving}
      {eval : PolicyEvaluation} {minted : Minted} {after : Guarded}
      (event : input.event = .call (.requestAccess auth req))
      (allowed : AccessAllowed p auth req (w.serving input.tape) caller s₁ eval s₂)
      (signed : sign p (.requestAccess caller.agent.id) (caller.tokenParams p req eval)
        (s₂.tape.now s₂.tick) (s₂.tape.uuid (s₂.tick + 1)) (s₂.tape.now (s₂.tick + 2)) =
          .ok minted)
      (mints : Guarded.Mints (AccessRow caller req eval minted) minted w.guarded after) :
      Effect p w input after
  | delegation {auth : Option Uuid} {req : DelegateRequest} {presenter : Uuid}
      {claims : AgentClaims} {s₁ s₂ : Serving} {expiry : Instant × Nat} {minted : Minted}
      {after : Guarded} (event : input.event = .call (.delegate auth req))
      (allowed : DelegationAllowed p auth req (w.serving input.tape) presenter claims s₁ expiry s₂)
      (signed : sign p (.delegate presenter req.parentGrantToken)
        (childParams p claims req expiry.2) (s₂.tape.now s₂.tick) (s₂.tape.uuid (s₂.tick + 1))
        (s₂.tape.now (s₂.tick + 2)) = .ok minted)
      (mints : Guarded.Mints (DelegationRow req minted) minted w.guarded after) :
      Effect p w input after
  | grant {req : PrincipalDelegateRequest} {agent : Agent} {principal : Principal}
      {grantId : Uuid} {s₁ : Serving} {minted : Minted} {after : Guarded}
      (event : input.event = .call (.principalDelegate req))
      (stored : GrantStored p req (w.serving input.tape) agent principal grantId s₁)
      (signed : sign p (.principalDelegate grantId) (grantParams p principal agent req)
        (s₁.tape.now s₁.tick) (s₁.tape.uuid (s₁.tick + 1)) (s₁.tape.now (s₁.tick + 2)) =
          .ok minted)
      (mints : Guarded.Mints (GrantRowOf agent req grantId minted) minted w.guarded after) :
      Effect p w input after
  | revoked {jti : String} (event : input.event = .call (.revokeToken jti)) :
      Effect p w input { w.guarded with
        jtiStore := insert jti w.guarded.jtiStore
        tokens := revokeRows (·.id == jti) w.guarded.tokens }
  | stopped {id : Uuid} (event : input.event = .call (.killAgent id)) (up : w.up = true) :
      Effect p w input { w.guarded with
        killedAgents := insert id w.guarded.killedAgents
        tokens := stopRows id (input.tape.fault 0) w.guarded.tokens }
  | restored {id : Uuid} (event : input.event = .call (.restoreAgent id)) :
      Effect p w input { w.guarded with killedAgents := w.guarded.killedAgents.erase id }
  | restarted (event : input.event = .restart) :
      Effect p w input { w.guarded with killedAgents := ∅, jtiStore := ∅ }

/-- The guarded part after a call that a running server has served. -/
theorem World.guarded_step_call {w : World} {input : Input} {call : Call}
    (event : input.event = .call call) (up : w.up = true) :
    (w.step p input).guarded = (serve p call (w.serving input.tape)).2.guarded := by
  simp only [World.step, event, up, if_true]
  rfl

theorem World.guarded_step_restart {w : World} {input : Input} (event : input.event = .restart) :
    (w.step p input).guarded = (startUp p (w.serving input.tape)).2.guarded := by
  simp only [World.step, event]
  rfl

theorem World.step_down {w : World} {input : Input} {call : Call}
    (event : input.event = .call call) (down : w.up = false) :
    w.step p input = { w with clock := input.arrival } := by
  simp only [World.step, event, down, Bool.false_eq_true, if_false]

/-- Every step has one of the listed effects. -/
theorem World.step_effect (w : World) (input : Input) :
    World.Effect p w input (w.step p input).guarded := by
  cases hevent : input.event with
  | restart =>
      rw [guarded_step_restart hevent, startUp_effect]
      exact .restarted hevent
  | call call =>
      cases hup : w.up with
      | false =>
          rw [step_down hevent hup]
          exact .kept hevent fun up => absurd (hup.symm.trans up) nofun
      | true =>
          rw [guarded_step_call hevent hup]
          cases htouches : call.touchesGuarded with
          | false =>
              rw [keeps_serve htouches]
              refine .kept hevent ?_
              intro _ id hcall
              rw [hcall] at htouches
              cases htouches
          | true =>
              cases call with
              | requestAccess auth req =>
                  rw [serve, reply_state]
                  rcases requestAccess_effect (p := p) auth req (w.serving input.tape) with
                    hkept | ⟨caller, s₁, eval, s₂, minted, hallowed, hsigned, hmints⟩
                  · rw [hkept]
                    exact .kept hevent nofun
                  · exact .access hevent hallowed hsigned hmints
              | delegate auth req =>
                  rw [serve, reply_state]
                  rcases delegate_effect (p := p) auth req (w.serving input.tape) with
                    hkept | ⟨presenter, claims, s₁, expiry, s₂, minted, hallowed, hsigned, hmints⟩
                  · rw [hkept]
                    exact .kept hevent nofun
                  · exact .delegation hevent hallowed hsigned hmints
              | principalDelegate req =>
                  rw [serve, reply_state]
                  rcases principalDelegate_effect (p := p) req (w.serving input.tape) with
                    hkept | ⟨agent, principal, grantId, s₁, minted, hstored, hsigned, hmints⟩
                  · rw [hkept]
                    exact .kept hevent nofun
                  · exact .grant hevent hstored hsigned hmints
              | revokeToken jti =>
                  rw [serve, reply_state (revokeTokenByJti jti) fun _ => Reply.tokenRevoked jti]
                  obtain hkept | hrevoked := revokeTokenByJti_effect jti (w.serving input.tape)
                  · rw [hkept]
                    exact .kept hevent nofun
                  · rw [hrevoked]
                    exact .revoked hevent
              | killAgent id =>
                  rw [serve, reply_state, killAgent_effect]
                  exact .stopped hevent hup
              | restoreAgent id => exact .restored hevent
              | _ => cases htouches

end

end Patroclus
