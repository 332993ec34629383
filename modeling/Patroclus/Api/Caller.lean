import Patroclus.Api.Decision
import Patroclus.Foundation.Returns

/-!
# Which callers are resolved

`request_access` resolves its caller before it decides anything: the client key
must be that of the agent in the body, the agent must be registered, and a
delegation token must verify for it. When no statement fails, these conditions on
the state in which a request arrives are exactly those of a resolved caller.
-/

namespace Patroclus

open Foundation

/-- The delegation token of a request verifies for its agent, if there is one. The
readings are the two that follow the lookup of the agent. -/
def AccessRequest.DelegationVerifies (p : Platform) (req : AccessRequest) (s : Serving) : Prop :=
  ∀ token, req.delegationToken = some token → ∃ claims, TokenVerifier.verify p
    s.app.jtiStore (s.tape.now (s.tick + 3)) (s.tape.now (s.tick + 4)) token
      (some (agentAudience req.agentId)) = .ok claims

/-- The conditions under which a request gets a caller. -/
structure Resolves (p : Platform) (auth : Option Uuid) (req : AccessRequest) (s : Serving) :
    Prop where
  authenticated : auth = some req.agentId
  registered : s.app.db.agents.any (·.id == req.agentId) = true
  delegation : req.DelegationVerifies p s

section

variable {p : Platform} {auth : Option Uuid} {req : AccessRequest} {s : Serving}

theorem find?_of_registered {id : Uuid} (h : s.app.db.agents.any (·.id == id) = true) :
    ∃ row, s.app.db.agents.find? (·.id == id) = some row :=
  Option.isSome_iff_exists.mp (by simpa using h)

theorem registered_of_find? {id : Uuid} {row : AgentRow}
    (h : s.app.db.agents.find? (·.id == id) = some row) :
    s.app.db.agents.any (·.id == id) = true := by
  have hid := List.find?_some h
  exact List.any_eq_true.mpr ⟨row, List.mem_of_find?_eq_some h, hid⟩

/-- The caller's session is stopped exactly if the session of the request is. -/
theorem CallerFound.killed_eq {caller : Caller} {s₁ : Serving} (h : CallerFound p req s caller s₁) :
    caller.session.killed = (s.app.sessionStore.sessionFor req).killed := by
  obtain ⟨now, hsession, -⟩ := h.session
  rw [hsession, SessionStore.getOrCreateSession, SessionStore.sessionFor]
  cases s.app.sessionStore.sessions.lookup req.sessionKey with
  | none => rfl
  | some session => rfl

theorem ownerPrincipal_returns (agent : Agent) (s : Serving) :
    (ownerPrincipal p agent).Returns (fun _ finish => finish.still = s.still) s := by
  rw [ownerPrincipal]
  cases agent.ownerId with
  | none => exact .pure rfl
  | some ownerId =>
      refine .bind (.attempt (Database.keeps_getPrincipal tickFree_still ownerId) s) ?_
      intro found s' hstill
      cases found with
      | ok principal => exact .pure hstill
      | error e => exact .pure hstill

theorem getPrincipalByEmail_returns (email : String) (s : Serving) :
    (Database.getPrincipalByEmail p email).Returns (fun _ _ => True) s := by
  refine .bind (.attempt ((Database.keeps_queryRow tickFree_still _).bind fun row =>
    Database.keeps_principalFromRow tickFree_still row) s) ?_
  intro found s' _
  cases found with
  | ok principal => exact .pure trivial
  | error e => exact .pure trivial

theorem Resolves.returns (h : Resolves p auth req s) (faults : ∀ n, s.tape.fault n = none) :
    (resolveCaller p auth req).Returns (fun caller s₁ => CallerFound p req s caller s₁) s := by
  obtain ⟨row, hrow⟩ := find?_of_registered h.registered
  have hagent := (getAgent_eq_ok (p := p)).mpr ⟨faults s.tick, row, hrow, rfl, rfl⟩
  have hprincipal (agent : Agent) : (requestPrincipal p agent req).Returns (fun _ _ => True)
      s.next.next.next := by
    rw [requestPrincipal]
    cases htoken : req.delegationToken with
    | none => exact .bind (ownerPrincipal_returns agent _) fun _ _ _ => .pure trivial
    | some token =>
        obtain ⟨claims, hverify⟩ := h.delegation token htoken
        refine .bind_run (verifyToken_eq_ok.mpr ⟨hverify, rfl⟩) ?_
        exact .bind (getPrincipalByEmail_returns _ _) fun _ _ _ => .pure trivial
  obtain ⟨⟨principal, chain⟩, s₂, hprincipal, -⟩ := hprincipal _
  have hrun := resolveCaller_eq_ok.mpr ⟨h.authenticated, _, _, principal, chain, s₂, _, hagent,
    hprincipal, getOrCreateSession_eq_ok.mpr ⟨rfl, rfl⟩, rfl⟩
  exact .of_run hrun (resolveCaller_found hrun)

theorem resolves_of_run {caller : Caller} {s₁ : Serving}
    (run : resolveCaller p auth req s = (.ok caller, s₁)) : Resolves p auth req s := by
  obtain ⟨hauth, agent, s₂, principal, chain, s₃, session, hagent, hprincipal, -, -⟩ :=
    resolveCaller_eq_ok.mp run
  obtain ⟨-, row, hrow, -, rfl⟩ := getAgent_eq_ok.mp hagent
  refine ⟨hauth, registered_of_find? hrow, ?_⟩
  intro token htoken
  rw [requestPrincipal, htoken] at hprincipal
  obtain ⟨claims, s₄, hverify, -⟩ := Action.bind_ok_iff.mp hprincipal
  exact ⟨claims, (verifyToken_eq_ok.mp hverify).1⟩

end

end Patroclus
