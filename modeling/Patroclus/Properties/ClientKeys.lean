import Patroclus.Api.Auth
import Patroclus.Api.Answer
import Patroclus.Foundation.Binding
import Patroclus.Foundation.Latest

/-!
# Client keys and their rotation

The server stores the hash of an agent's client key with the agent, and a new key
replaces the old one. In a run of registrations and rotations the hash that is stored is
that of the key that was handed out last, so this key and no other authenticates as the
agent, and the agent endpoints answer about an agent to nobody else.
-/

namespace Patroclus

open Foundation

/-- An input that registers an agent or provisions its client key. -/
def Input.HandlesKeys (input : Input) : Prop :=
  (∃ req, input.event = .call (.createAgent req)) ∨
    ∃ id, input.event = .call (.provisionClientKey id)

/-- The key that an answer hands out, with the agent it is for. -/
def issuedBy (answered : Input × Except Failure Reply) : Option (Uuid × String) :=
  match answered.1.event, answered.2 with
  | .call (.provisionClientKey id), .ok (.clientKey rawKey) => some (id, rawKey)
  | _, _ => none

/-- The agents after the update that stores the hash of a key. -/
def rekeyed (id : Uuid) (keyHash updatedAt : String) (rows : List AgentRow) : List AgentRow :=
  Db.updateWhere (·.id == id)
    (fun row => { row with clientKeyHash := some keyHash, updatedAt := updatedAt }) rows

/-- What an input that handles keys does to the agents, and what it answers. -/
inductive KeyEffect (p : Platform) (input : Input) (before : List AgentRow) :
    Except Failure Reply → List AgentRow → Prop where
  | failed {e : Failure} : KeyEffect p input before (.error e) before
  | created {req : CreateAgentRequest} {outcome : Except Failure Reply} {row : AgentRow}
      (event : input.event = .call (.createAgent req)) (fresh : row.id ∉ before.map (·.id))
      (active : row.status = .active) (keyless : row.clientKeyHash = none) :
      KeyEffect p input before outcome (before ++ [row])
  | provisioned {id : Uuid} {rawKey updatedAt : String}
      (event : input.event = .call (.provisionClientKey id)) (registered : id ∈ before.map (·.id))
      (nonempty : rawKey ≠ "") :
      KeyEffect p input before (.ok (.clientKey rawKey))
        (rekeyed id (hashClientKey p rawKey) updatedAt before)

section

variable {p : Platform} {w : World} {input : Input} {s : Serving}

def Serving.agents (s : Serving) : List AgentRow := s.app.db.agents

theorem tickFree_agents : TickFree Serving.agents := fun _ => rfl

/-- An unknown agent gets no key, and nothing changes. -/
theorem provisionClientKey_unknown {id : Uuid} (unknown : id ∉ s.app.db.agents.map (·.id)) :
    (provisionClientKey p id).WP (fun outcome finish =>
      (∃ e, outcome = .error e) ∧ finish.still = s.still) s := by
  apply Action.WP.bind_of
  · intro agent s₁ hagent
    obtain ⟨-, row, hfound, -⟩ := getAgent_eq_ok.mp hagent
    have hid := List.find?_some hfound
    refine absurd (List.mem_map.mpr ⟨row, List.mem_of_find?_eq_some hfound, ?_⟩) unknown
    exact beq_iff_eq.mp hid
  · intro e finish hagent
    exact ⟨⟨e, rfl⟩, (Database.keeps_getAgent tickFree_still id).eq hagent⟩

/-- The hash of a registered agent is stored, unless the statement fails. -/
theorem setAgentClientKeyHash_effect (p : Platform) (keyHash : String) {id : Uuid}
    (registered : id ∈ s.agents.map (·.id)) :
    (Database.setAgentClientKeyHash p id keyHash).WP (fun outcome finish =>
      (∃ e, outcome = .error e ∧ finish.agents = s.agents) ∨
        outcome = .ok () ∧
          ∃ updatedAt, finish.agents = rekeyed id keyHash updatedAt s.agents) s := by
  refine .bind_run utcNow_run (.bind_of (fun updated s₁ hupdate => ?_) fun e finish hupdate => ?_)
  · obtain ⟨-, db, hdb, rfl⟩ := sql_eq_ok.mp hupdate
    cases hdb
    split
    · rename_i hnone
      obtain ⟨row, hrow, hid⟩ := List.mem_map.mp registered
      exact absurd (beq_iff_eq.mpr hid) (List.countP_eq_zero.mp hnone row hrow)
    · exact .inr ⟨rfl, _, rfl⟩
  · rw [sql_eq_error hupdate]
    exact .inl ⟨e, rfl, rfl⟩

theorem provisionClientKey_effect {id : Uuid}
    (event : input.event = .call (.provisionClientKey id)) :
    (provisionClientKey p id).WP (fun outcome finish =>
      KeyEffect p input s.agents (outcome.map .clientKey) finish.agents) s := by
  apply Action.WP.bind_of
  · intro agent s₁ hagent
    have hkept := (Database.keeps_getAgent tickFree_agents id).eq hagent
    have hregistered : id ∈ s₁.agents.map (·.id) := by
      obtain ⟨-, row, hfound, -⟩ := getAgent_eq_ok.mp hagent
      have hid := List.find?_some hfound
      rw [hkept]
      exact List.mem_map.mpr ⟨row, List.mem_of_find?_eq_some hfound, beq_iff_eq.mp hid⟩
    rw [← hkept]
    refine .bind_run rfl (Action.WP.bind_iff.mpr ?_)
    refine (setAgentClientKeyHash_effect (s := s₁.next) p _ hregistered).mono ?_
    rintro outcome finish (⟨e, rfl, hrows⟩ | ⟨rfl, updatedAt, hrows⟩)
    · rw [Action.WP.then_error, hrows]
      exact .failed
    · rw [Action.WP.then_ok, Action.WP.pure_iff, hrows]
      exact .provisioned event hregistered (by simp)
  · intro e finish hagent
    rw [(Database.keeps_getAgent tickFree_agents id).eq hagent]
    exact .failed

theorem createAgent_effect {req : CreateAgentRequest}
    (event : input.event = .call (.createAgent req)) :
    (Database.createAgent p req).WP (fun outcome finish =>
      KeyEffect p input s.agents (outcome.map .agent) finish.agents) s := by
  refine .bind_run nowV7_run (.bind_run utcNow_run ?_)
  refine .bind_of (fun _ s₁ hinsert => ?_) fun e finish hinsert => ?_
  · obtain ⟨-, db, hdb, rfl⟩ := sql_eq_ok.mp hinsert
    obtain ⟨hfresh, rfl⟩ := Db.insertAgent_eq_ok.mp hdb
    apply (Database.keeps_getAgent tickFree_agents _).wp
    intro outcome finish hkept
    rw [hkept]
    refine .created event ?_ rfl rfl
    intro hmem
    obtain ⟨old, hold, hid⟩ := List.mem_map.mp hmem
    exact List.any_eq_false.mp hfresh old hold (beq_iff_eq.mpr hid)
  · rw [sql_eq_error hinsert]
    exact .failed

/-- Every input that handles keys has one of the listed effects. -/
theorem World.keyEffect (p : Platform) (w : World) (handles : input.HandlesKeys) :
    KeyEffect p input w.app.db.agents (w.answer p input) (w.step p input).app.db.agents := by
  have hcall (call : Call) (event : input.event = .call call)
      (h : (serve p call).WP (fun outcome finish =>
        KeyEffect p input w.app.db.agents outcome finish.agents) (w.serving input.tape)) :
      KeyEffect p input w.app.db.agents (w.answer p input) (w.step p input).app.db.agents := by
    cases hup : w.up with
    | true =>
        simp only [World.answer, World.reply, World.step, event, hup, if_true]
        exact h
    | false =>
        simp only [World.answer, World.reply, World.step, event, hup, Bool.false_eq_true, if_false]
        exact .failed
  obtain ⟨req, hevent⟩ | ⟨id, hevent⟩ := handles
  · exact hcall _ hevent (wp_wrap (createAgent_effect (s := w.serving input.tape) hevent))
  · exact hcall _ hevent (wp_wrap (provisionClientKey_effect (s := w.serving input.tape) hevent))

theorem map_id_rekeyed {id : Uuid} {keyHash updatedAt : String} {rows : List AgentRow} :
    (rekeyed id keyHash updatedAt rows).map (·.id) = rows.map (·.id) :=
  Db.map_updateWhere fun _ => rfl

theorem find?_rekeyed {id other : Uuid} {keyHash updatedAt : String} {rows : List AgentRow}
    (ne : other ≠ id) :
    (rekeyed id keyHash updatedAt rows).find? (·.id == other) = rows.find? (·.id == other) := by
  have hfind : (rekeyed id keyHash updatedAt rows).find? (·.id == other) =
      (rows.find? (·.id == other)).map fun row => if row.id == id then
        { row with clientKeyHash := some keyHash, updatedAt := updatedAt } else row :=
    Db.find?_updateWhere fun _ => rfl
  rw [hfind]
  cases hfound : rows.find? (·.id == other) with
  | none => rfl
  | some row =>
      have hid := List.find?_some hfound
      rw [Option.map_some, if_neg]
      intro hsame
      exact ne ((beq_iff_eq.mp hid).symm.trans (beq_iff_eq.mp hsame))

/-- Provisioning one agent leaves the others as they are. -/
theorem World.agent_step_provision {id other : Uuid}
    (event : input.event = .call (.provisionClientKey id)) (ne : other ≠ id) :
    (w.step p input).app.db.agents.find? (·.id == other) =
      w.app.db.agents.find? (·.id == other) := by
  have heffect := World.keyEffect p w (.inr ⟨id, event⟩)
  generalize w.answer p input = outcome at heffect
  generalize (w.step p input).app.db.agents = after at heffect ⊢
  cases heffect with
  | failed => rfl
  | created hevent =>
      rw [event] at hevent
      cases hevent
  | provisioned hevent =>
      rw [event] at hevent
      cases hevent
      exact find?_rekeyed ne

theorem World.step_provision_unknown {id : Uuid}
    (event : input.event = .call (.provisionClientKey id))
    (unknown : id ∉ w.app.db.agents.map (·.id)) :
    (∃ e, w.answer p input = .error e) ∧ (w.step p input).app = w.app := by
  have hfails : (serve p (.provisionClientKey id)).WP (fun outcome finish =>
      (∃ e, outcome = .error e) ∧ finish.app = w.app) (w.serving input.tape) := by
    apply wp_wrap
    refine (provisionClientKey_unknown (s := w.serving input.tape) unknown).mono ?_
    rintro outcome finish ⟨⟨e, rfl⟩, hstill⟩
    exact ⟨⟨e, rfl⟩, congrArg Prod.fst hstill⟩
  cases hup : w.up with
  | true =>
      simp only [World.answer, World.reply, World.step, event, hup, if_true]
      exact hfails
  | false =>
      simp only [World.answer, World.reply, World.step, event, hup, Bool.false_eq_true, if_false]
      exact ⟨⟨_, rfl⟩, trivial⟩

/-! ## The hashes of a run -/

theorem hashClientKey_injective (injective : Function.Injective p.sha256) :
    Function.Injective (hashClientKey p) := by
  intro key key' h
  exact utf8_injective (injective (hexBytes_injective (String.ofList_injective h)))

/-- The agents after some keys have been handed out. -/
structure KeysBound (p : Platform) (rows : List AgentRow) (issued : List (Uuid × String)) :
    Prop where
  ids : (rows.map (·.id)).Nodup
  active : ∀ row ∈ rows, row.status = .active
  hash : ∀ row ∈ rows, row.clientKeyHash = (latest row.id issued).map (hashClientKey p)
  known : ∀ key ∈ issued, key.1 ∈ rows.map (·.id)
  nonempty : ∀ key ∈ issued, key.2 ≠ ""

theorem issuedBy_error {e : Failure} : issuedBy (input, .error e) = none := by
  unfold issuedBy
  split
  · rename_i h
    cases h
  · rfl

theorem KeysBound.append {rows : List AgentRow} {row : AgentRow} {issued : List (Uuid × String)}
    (h : KeysBound p rows issued) (fresh : row.id ∉ rows.map (·.id)) (active : row.status = .active)
    (keyless : row.clientKeyHash = none) : KeysBound p (rows ++ [row]) issued where
  ids := nodup_append_fresh h.ids fresh
  active := List.forall_mem_append.mpr ⟨h.active, List.forall_mem_singleton.mpr active⟩
  hash := by
    have hnone : latest row.id issued = none := by
      by_contra hsome
      obtain ⟨key, hkey⟩ := Option.ne_none_iff_exists'.mp hsome
      exact fresh (h.known _ (mem_of_latest hkey))
    refine List.forall_mem_append.mpr ⟨h.hash, List.forall_mem_singleton.mpr ?_⟩
    rw [keyless, hnone, Option.map_none]
  known := by
    intro key hkey
    rw [List.map_append]
    exact List.mem_append_left _ (h.known key hkey)
  nonempty := h.nonempty

theorem KeysBound.rekeyed {rows : List AgentRow} {issued : List (Uuid × String)} {id : Uuid}
    {rawKey : String} (h : KeysBound p rows issued) (registered : id ∈ rows.map (·.id))
    (nonempty : rawKey ≠ "") (updatedAt : String) :
    KeysBound p (rekeyed id (hashClientKey p rawKey) updatedAt rows) (issued ++ [(id, rawKey)])
    where
  ids := by
    rw [map_id_rekeyed]
    exact h.ids
  active := by
    intro row hrow
    obtain ⟨old, hold, rfl⟩ := Db.mem_updateWhere.mp hrow
    split
    · exact h.active old hold
    · exact h.active old hold
  hash := by
    intro row hrow
    obtain ⟨old, hold, rfl⟩ := Db.mem_updateWhere.mp hrow
    by_cases hid : old.id = id
    · have hcond : (old.id == id) = true := beq_iff_eq.mpr hid
      rw [if_pos hcond, latest_concat, if_pos hid.symm, Option.map_some]
    · have hcond : ¬ (old.id == id) = true := fun heq => hid (beq_iff_eq.mp heq)
      rw [if_neg hcond, latest_concat, if_neg (Ne.symm hid)]
      exact h.hash old hold
  known := by
    rw [map_id_rekeyed]
    exact List.forall_mem_append.mpr ⟨h.known, List.forall_mem_singleton.mpr registered⟩
  nonempty := List.forall_mem_append.mpr ⟨h.nonempty, List.forall_mem_singleton.mpr nonempty⟩

theorem KeysBound.step {issued : List (Uuid × String)} (h : KeysBound p w.app.db.agents issued)
    (handles : input.HandlesKeys) : KeysBound p (w.step p input).app.db.agents
      (issued ++ (issuedBy (input, w.answer p input)).toList) := by
  have heffect := World.keyEffect p w handles
  generalize w.answer p input = outcome at heffect ⊢
  generalize (w.step p input).app.db.agents = after at heffect ⊢
  cases heffect with
  | failed =>
      rw [issuedBy_error, Option.toList_none, List.append_nil]
      exact h
  | created event fresh active keyless =>
      have hnone : issuedBy (input, outcome) = none := by
        unfold issuedBy
        rw [event]
      rw [hnone, Option.toList_none, List.append_nil]
      exact h.append fresh active keyless
  | @provisioned id rawKey updatedAt event registered nonempty =>
      have hissued : issuedBy (input, .ok (.clientKey rawKey)) = some (id, rawKey) := by
        unfold issuedBy
        rw [event]
      rw [hissued, Option.toList_some]
      exact h.rekeyed registered nonempty updatedAt

variable {inputs : List Input}

/-- The keys that a run hands out, in their order. -/
def issuedKeys (p : Platform) (w : World) (inputs : List Input) : List (Uuid × String) :=
  (transcript (World.step p) (World.answer p) w inputs).filterMap issuedBy

theorem KeysBound.run {issued : List (Uuid × String)} (h : KeysBound p w.app.db.agents issued)
    (handles : ∀ input ∈ inputs, input.HandlesKeys) :
    KeysBound p (w.run p inputs).app.db.agents (issued ++ issuedKeys p w inputs) := by
  induction inputs generalizing w issued with
  | nil =>
      rw [issuedKeys, transcript, List.filterMap_nil, List.append_nil]
      exact h
  | cons input inputs ih =>
      have hrest := ih (h.step (handles input List.mem_cons_self)) fun next hnext =>
        handles next (List.mem_cons_of_mem _ hnext)
      rw [List.append_assoc] at hrest
      have hkeys : issuedKeys p w (input :: inputs) =
          (issuedBy (input, w.answer p input)).toList ++ issuedKeys p (w.step p input) inputs := by
        unfold issuedKeys
        rw [transcript, List.filterMap_cons]
        cases issuedBy (input, w.answer p input) with
        | none => rfl
        | some key => rfl
      rw [hkeys]
      exact hrest

end

/-! ## Who is authenticated -/

/-- After a run, exactly the key that was handed out last for an agent authenticates as it,
and the agent endpoints answer about an agent to its current key only. -/
structure KeysAuthenticate (p : Platform) (after : World) (issued : List (Uuid × String)) :
    Prop where
  authenticates : ∀ (auth : AuthConfig) (req : Request) (s : Serving),
    s.app.db.agents = after.app.db.agents → (∀ n, s.tape.fault n = none) →
    isAdminPath req.path = false → isAgentPath req.path = true →
      ∀ agentId, (authMiddleware p auth req (fun agent => pure agent) s).1 =
          .ok (.ok (some agentId)) ↔ latest agentId issued = some (presentedKey req)
  nobody : ∀ (auth : AuthConfig) (req : Request) (s : Serving),
    s.app.db.agents = after.app.db.agents →
    isAdminPath req.path = false → isAgentPath req.path = true →
      (∀ agentId, latest agentId issued ≠ some (presentedKey req)) →
        ∃ e, (authMiddleware p auth req (fun agent => pure agent) s).1 = .ok (.error e)
  rotated : ∀ agentId rawKey, (agentId, rawKey) ∈ issued → latest agentId issued ≠ some rawKey →
    ∀ other, latest other issued ≠ some rawKey
  others : ∀ (input : Input) id, input.event = .call (.provisionClientKey id) →
    ∀ other ≠ id, (after.step p input).app.db.agents.find? (·.id == other) =
      after.app.db.agents.find? (·.id == other)
  unknown : ∀ (input : Input) id, input.event = .call (.provisionClientKey id) →
    id ∉ after.app.db.agents.map (·.id) →
      (∃ e, after.answer p input = .error e) ∧ (after.step p input).app = after.app
  requestAccess : ∀ (auth : AuthConfig) (req : Request) (body : AccessRequest) (s : Serving)
    response finish, s.app.db.agents = after.app.db.agents →
    authMiddleware p auth req (fun agent => requestAccess p agent body) s =
      (.ok (.ok response), finish) → latest body.agentId issued = some (presentedKey req)
  check : ∀ (auth : AuthConfig) (req : Request) (body : AccessRequest) (s : Serving)
    response finish, s.app.db.agents = after.app.db.agents →
    authMiddleware p auth req (fun agent => checkAccess p agent body) s =
      (.ok (.ok response), finish) → latest body.agentId issued = some (presentedKey req)
  approvalStatus : ∀ (auth : AuthConfig) (req : Request) id (s : Serving)
    (approval : Database.ApprovalRequest) finish, s.app.db.agents = after.app.db.agents →
    authMiddleware p auth req (fun agent => approvalStatus p agent id) s =
      (.ok (.ok approval), finish) → latest approval.agentId issued = some (presentedKey req)

section

variable {p : Platform} {w : World} {issued : List (Uuid × String)} {auth : AuthConfig}
  {req : Request} {s : Serving} {agentId : Uuid}

theorem KeysBound.latest_of_hash {rows : List AgentRow} {row : AgentRow} {rawKey : String}
    (h : KeysBound p rows issued) (injective : Function.Injective p.sha256) (mem : row ∈ rows)
    (hash : row.clientKeyHash = some (hashClientKey p rawKey)) :
    latest row.id issued = some rawKey := by
  rw [h.hash row mem] at hash
  obtain ⟨key, hkey, hhash⟩ := Option.map_eq_some_iff.mp hash
  rw [hkey, hashClientKey_injective injective hhash]

/-- Whoever gets through as an agent has presented its current key. -/
theorem KeysBound.latest_of_letThrough (h : KeysBound p s.app.db.agents issued)
    (injective : Function.Injective p.sha256)
    (through : LetThrough p auth req s.app.db (some agentId)) :
    latest agentId issued = some (presentedKey req) := by
  cases through with
  | agent _ _ _ mem hash _ => exact h.latest_of_hash injective mem hash

/-- The current key of an agent is found, and no other agent is. -/
theorem KeysBound.found (h : KeysBound p s.app.db.agents issued)
    (injective : Function.Injective p.sha256) (distinct : (issued.map (·.2)).Nodup)
    (faults : ∀ n, s.tape.fault n = none) {rawKey : String}
    (current : latest agentId issued = some rawKey) :
    (Database.getAgentByClientKeyHash p (hashClientKey p rawKey)).Returns
      (fun found _ => ∃ agent : Agent, found = some agent ∧ agent.id = agentId) s := by
  obtain ⟨row, hrow, hid⟩ := List.mem_map.mp (h.known _ (mem_of_latest current))
  have hsome : (s.app.db.agents.find? fun row =>
      row.clientKeyHash == some (hashClientKey p rawKey) && row.status == .active).isSome := by
    rw [List.find?_isSome]
    refine ⟨row, hrow, ?_⟩
    rw [h.hash row hrow, h.active row hrow, hid, current, Option.map_some, beq_self_eq_true]
    rfl
  obtain ⟨found, hfound⟩ := Option.isSome_iff_exists.mp hsome
  have hmem := List.mem_of_find?_eq_some hfound
  have hmatch := List.find?_some hfound
  simp only [Bool.and_eq_true, beq_iff_eq] at hmatch
  have hagent : found.id = agentId :=
    eq_of_latest distinct (mem_of_latest current) (h.latest_of_hash injective hmem hmatch.1)
  have hquery : query (fun db => db.agents.find? fun row =>
      row.clientKeyHash == some (hashClientKey p rawKey) && row.status == .active) s =
        (.ok (some found), s.next) := by
    rw [query_run (faults s.tick), hfound]
  have hread : s.next.app.db.agents.find? (·.id == found.id) = some found :=
    find?_of_nodup_map AgentRow.id h.ids hmem
  refine .bind_run hquery ?_
  refine .bind_run (getAgent_eq_ok.mpr ⟨faults _, found, hread, rfl, rfl⟩) ?_
  exact .pure ⟨_, rfl, hagent⟩

theorem authMiddleware_agent {α : Type} {next : Option Uuid → Handler α}
    (path : isAdminPath req.path = false) (agentPath : isAgentPath req.path = true)
    (key : presentedKey req ≠ "") : authMiddleware p auth req next s =
      match Database.getAgentByClientKeyHash p (hashClientKey p (presentedKey req)) s with
      | (.ok (some agent), middle) =>
          (do return Except.ok (ε := Unauthorized) (← next (some agent.id))) middle
      | (_, middle) => (.ok (.error ⟨"invalid agent client key"⟩), middle) := by
  have hkey : ¬ (presentedKey req).isEmpty = true := by simpa using key
  have hadmin : ¬ isAdminPath req.path = true := by simp [path]
  rw [authMiddleware, if_neg hadmin, if_pos agentPath, if_neg hkey]
  rw [Action.bind_run_ok (Action.attempt_run _ _)]
  rcases Database.getAgentByClientKeyHash p (hashClientKey p (presentedKey req)) s with
    ⟨outcome, middle⟩
  cases outcome with
  | error e => rfl
  | ok found =>
      cases found with
      | none => rfl
      | some agent => rfl

/-- The status of an approval is told to the agent that it belongs to. -/
theorem approvalStatus_ok {presenter : Option Uuid} {id : Uuid} {finish : Serving}
    {approval : Database.ApprovalRequest}
    (run : approvalStatus p presenter id s = (.ok approval, finish)) :
    presenter = some approval.agentId := by
  obtain ⟨agent, s₁, hagent, hread⟩ := Action.bind_ok_iff.mp run
  obtain ⟨found, s₂, -, hcheck⟩ := Action.bind_ok_iff.mp hread
  cases presenter with
  | none => cases hagent
  | some presenter =>
      cases hagent
      split at hcheck
      · rename_i hsame
        cases hcheck
        rw [hsame]
      · cases hcheck

theorem KeysBound.authenticates {after : World} (h : KeysBound p after.app.db.agents issued)
    (injective : Function.Injective p.sha256) (distinct : (issued.map (·.2)).Nodup) :
    KeysAuthenticate p after issued := by
  constructor
  · intro auth req s hagents faults path agentPath agentId
    rw [← hagents] at h
    constructor
    · intro hrun
      obtain ⟨agent, middle, hthrough, hnext⟩ := authMiddleware_ok (Prod.ext hrun rfl)
      cases hnext
      exact h.latest_of_letThrough injective hthrough
    · intro hcurrent
      have hkey := h.nonempty _ (mem_of_latest hcurrent)
      obtain ⟨found, middle, hrun, agent, rfl, rfl⟩ := h.found injective distinct faults hcurrent
      rw [authMiddleware_agent path agentPath hkey, hrun]
      rfl
  · intro auth req s hagents path agentPath hunknown
    rw [← hagents] at h
    by_cases hkey : presentedKey req = ""
    · have hempty : (presentedKey req).isEmpty = true := by simpa using hkey
      have hadmin : ¬ isAdminPath req.path = true := by simp [path]
      rw [authMiddleware, if_neg hadmin, if_pos agentPath, if_pos hempty]
      exact ⟨_, rfl⟩
    · rw [authMiddleware_agent path agentPath hkey]
      rcases hrun : Database.getAgentByClientKeyHash p (hashClientKey p (presentedKey req)) s with
        ⟨outcome, middle⟩
      cases outcome with
      | error e => exact ⟨_, rfl⟩
      | ok found =>
          cases found with
          | none => exact ⟨_, rfl⟩
          | some agent =>
              obtain ⟨row, hrow, hhash, hactive, -⟩ := getAgentByClientKeyHash_found hrun
              exact absurd (h.latest_of_hash injective hrow hhash) (hunknown row.id)
  · intro agentId rawKey hmem hreplaced other hother
    exact hreplaced (eq_of_latest distinct hmem hother ▸ hother)
  · intro input id hevent other hother
    exact World.agent_step_provision hevent hother
  · intro input id hevent hunknown
    exact World.step_provision_unknown hevent hunknown
  · intro auth req body s response finish hagents hrun
    rw [← hagents] at h
    obtain ⟨agent, middle, hthrough, hnext⟩ := authMiddleware_ok hrun
    obtain ⟨caller, s₁, hresolved⟩ := requestAccess_resolved hnext
    obtain ⟨rfl, -⟩ := resolveCaller_eq_ok.mp hresolved
    exact h.latest_of_letThrough injective hthrough
  · intro auth req body s response finish hagents hrun
    rw [← hagents] at h
    obtain ⟨agent, middle, hthrough, hnext⟩ := authMiddleware_ok hrun
    obtain ⟨rfl, -⟩ := checkAccess_ok hnext
    exact h.latest_of_letThrough injective hthrough
  · intro auth req id s approval finish hagents hrun
    rw [← hagents] at h
    obtain ⟨agent, middle, hthrough, hnext⟩ := authMiddleware_ok hrun
    rw [approvalStatus_ok hnext] at hthrough
    exact h.latest_of_letThrough injective hthrough

/-- In every run of registrations and rotations, whose keys all differ, a key authenticates
as an agent exactly if it is the one that was handed out last for that agent. -/
theorem keysAuthenticate {inputs : List Input} (injective : Function.Injective p.sha256)
    (start : w.app.db.agents = []) (handles : ∀ input ∈ inputs, input.HandlesKeys)
    (distinct : ((issuedKeys p w inputs).map (·.2)).Nodup) :
    KeysAuthenticate p (w.run p inputs) (issuedKeys p w inputs) := by
  have hstart : KeysBound p w.app.db.agents [] := by
    rw [start]
    exact ⟨List.nodup_nil, by simp, by simp, by simp, by simp⟩
  exact (hstart.run handles).authenticates injective distinct

end

/-- A provisioning of an agent, with the byte that the generator returns. -/
def provisioning (agentId : Uuid) (byte : UInt8) (firstId : Nat) : Input where
  event := .call (.provisionClientKey agentId)
  arrival := 0
  tape := { Tape.steady opening firstId with random := fun _ => [byte] }

/-- Two agents are registered and get their keys; then the first one gets another key. -/
def rotation : List Input := [
  .steady (.call (.createAgent ⟨"bot", .service, none, none, none⟩)) opening 300,
  .steady (.call (.createAgent ⟨"other", .service, none, none, none⟩)) opening 310,
  provisioning ⟨300⟩ 1 320, provisioning ⟨310⟩ 2 330, provisioning ⟨300⟩ 3 340]

theorem keysAuthenticate_rotation : KeysAuthenticate .unsigned
    ((initialWorld.run .unsigned [.steady .restart opening 100]).run .unsigned rotation)
    [(⟨300⟩, "pat_01"), (⟨310⟩, "pat_02"), (⟨300⟩, "pat_03")] := by
  have hkeys : issuedKeys .unsigned (initialWorld.run .unsigned [.steady .restart opening 100])
      rotation = [(⟨300⟩, "pat_01"), (⟨310⟩, "pat_02"), (⟨300⟩, "pat_03")] := by decide
  rw [← hkeys]
  refine keysAuthenticate (fun _ _ h => h) (by decide) ?_ ?_
  · intro input hinput
    simp only [rotation, List.mem_cons, List.not_mem_nil, or_false] at hinput
    obtain rfl | rfl | rfl | rfl | rfl := hinput
    · exact .inl ⟨_, rfl⟩
    · exact .inl ⟨_, rfl⟩
    · exact .inr ⟨_, rfl⟩
    · exact .inr ⟨_, rfl⟩
    · exact .inr ⟨_, rfl⟩
  · rw [hkeys]
    decide

end Patroclus
