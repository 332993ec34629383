import Patroclus.Api.Effects
import Patroclus.Db.Completion
import Patroclus.Foundation.Binding

/-!
# The resolution of approval requests

An approval request is pending until it is approved or denied. Approvers compete for
it: the update that resolves a request looks for a pending row, so the first of them
wins and the others change nothing.

A call is atomic, since it holds the database connection, but a statement of it may
fail. A call whose update was carried out and whose row could not be read back afterwards
has resolved the request and answers an error all the same.
-/

namespace Patroclus

open Foundation

inductive ApprovalCall where
  | create (agentId : Uuid) (principalId resourceId : Option Uuid) (action : String)
      (requestedScopes : List String) (ttlSeconds : Nat)
  | listPending
  | resolve (id approverId : Uuid) (approved : Bool) (reason : Option String)

inductive ApprovalAnswer where
  | request (request : Database.ApprovalRequest)
  | pending (requests : List Database.ApprovalRequest)

/-- A call with the tape of its steps. -/
structure ApprovalInput where
  call : ApprovalCall
  tape : Tape

section

variable (p : Platform)

def ApprovalCall.handle : ApprovalCall → Handler ApprovalAnswer
  | .create agentId principalId resourceId action requestedScopes ttlSeconds => do
      return .request (← Database.createApprovalRequest p agentId principalId resourceId action
        requestedScopes ttlSeconds)
  | .listPending => do return .pending (← Database.listPendingApprovals p)
  | .resolve id approverId approved reason => do
      return .request (← Database.resolveApprovalRequest p id approverId approved reason)

/-- The endpoints of an approver are resolutions. -/
theorem ApprovalCall.handle_resolve (id : Uuid) (approved : Bool) (req : ApproveRequest) :
    ApprovalCall.handle p (.resolve id req.approverId approved req.reason) = do
      return .request (← if approved then approveRequest p id req else denyRequest p id req) := by
  cases approved with
  | true => rfl
  | false => rfl

namespace ApprovalInput

def serving (app : AppState) (input : ApprovalInput) : Serving := ⟨app, [], input.tape, 0⟩

def step (app : AppState) (input : ApprovalInput) : AppState :=
  (input.call.handle p (input.serving app)).2.app

def answer (app : AppState) (input : ApprovalInput) : Except Failure ApprovalAnswer :=
  (input.call.handle p (input.serving app)).1

end ApprovalInput

end

/-- The row that an update makes of a pending request. -/
def ApprovalRow.resolvedBy (approverId : Uuid) (approved : Bool) (reason token : Option String)
    (resolvedAt : String) (row : ApprovalRow) : ApprovalRow :=
  { row with
    status := if approved then .approved else .denied
    approverId := some approverId
    reason := reason
    approvalToken := token
    resolvedAt := some resolvedAt }

def ApprovalRow.isPending (id : Uuid) (row : ApprovalRow) : Bool :=
  row.id == id && row.status == .pending

/-- The table after the update for a request. -/
def resolveRows (id approverId : Uuid) (approved : Bool) (reason token : Option String)
    (resolvedAt : String) (rows : List ApprovalRow) : List ApprovalRow :=
  Db.updateWhere (ApprovalRow.isPending id)
    (ApprovalRow.resolvedBy approverId approved reason token resolvedAt) rows

/-- The place of the update among the steps of a resolution. -/
def resolveTick (approved : Bool) : Nat := if approved then 2 else 1

/-- How a resolution answers that has updated its row: with the row as it is read back in the
next step, unless that fails. -/
def ApprovalInput.ReadsBack (p : Platform) (input : ApprovalInput) (id : Uuid) (approved : Bool)
    (after : List ApprovalRow) (outcome : Except Failure Database.ApprovalRequest) : Prop :=
  if input.tape.fault (resolveTick approved + 1) = none then
    ∃ row, after.find? (·.id == id) = some row ∧
      outcome = .ok (Database.approvalOfRow p row (input.tape.now (resolveTick approved + 2))
        (input.tape.now (resolveTick approved + 3)))
  else ∃ e, outcome = .error e

/-- The call reaches its statement on the requests, and finds what it looks for. -/
def ApprovalInput.Proceeds (rows : List ApprovalRow) (input : ApprovalInput) : Prop :=
  match input.call with
  | .create .. => False
  | .listPending => input.tape.fault 0 = none
  | .resolve id _ approved _ => input.tape.fault (resolveTick approved) = none ∧
      ∃ row ∈ rows, row.isPending id = true

/-- What a call does to the table of approval requests, and what it answers. -/
inductive ApprovalEffect (p : Platform) (input : ApprovalInput) (before : List ApprovalRow) :
    Except Failure ApprovalAnswer → List ApprovalRow → Prop where
  | failed {e : Failure} (halted : ¬ input.Proceeds before) :
      ApprovalEffect p input before (.error e) before
  | filed {agentId : Uuid} {principalId resourceId : Option Uuid} {action : String}
      {requestedScopes : List String} {ttlSeconds : Nat} {expiresAt : Instant} {row : ApprovalRow}
      {outcome : Except Failure Database.ApprovalRequest}
      (call : input.call =
        .create agentId principalId resourceId action requestedScopes ttlSeconds)
      (expiry : (input.tape.now 1).addSeconds (asI64 ttlSeconds) = some expiresAt)
      (id : row.id = input.tape.uuid 0) (pending : row.status = .pending)
      (token : row.approvalToken = none) (expires : row.expiresAt = p.toRfc3339 expiresAt)
      (fresh : ∀ old ∈ before, old.id ≠ row.id) :
      ApprovalEffect p input before (outcome.map .request) (before ++ [row])
  | listed {requests : List Database.ApprovalRequest} (call : input.call = .listPending)
      (proceeds : input.tape.fault 0 = none)
      (shown : requests.map (·.id) =
        (Database.orderDesc (·.createdAt) (before.filter (·.status == .pending))).map (·.id)) :
      ApprovalEffect p input before (.ok (.pending requests)) before
  | resolved {id approverId : Uuid} {approved : Bool} {reason token : Option String}
      {outcome : Except Failure Database.ApprovalRequest}
      (call : input.call = .resolve id approverId approved reason)
      (proceeds : input.Proceeds before) (issued : token.isSome = approved)
      (answered : input.ReadsBack p id approved (resolveRows id approverId approved reason token
        (p.toRfc3339 (input.tape.now 0)) before) outcome) :
      ApprovalEffect p input before (outcome.map .request)
        (resolveRows id approverId approved reason token (p.toRfc3339 (input.tape.now 0)) before)

section

variable {id approverId : Uuid} {approved : Bool} {reason token : Option String}
  {resolvedAt : String} {rows : List ApprovalRow}

theorem map_id_resolveRows : (resolveRows id approverId approved reason token resolvedAt rows).map
    (·.id) = rows.map (·.id) :=
  Db.map_updateWhere fun _ => rfl

theorem find?_resolveRows {sought : Uuid} :
    (resolveRows id approverId approved reason token resolvedAt rows).find? (·.id == sought) =
      (rows.find? (·.id == sought)).map fun row => if row.isPending id then
        row.resolvedBy approverId approved reason token resolvedAt else row :=
  Db.find?_updateWhere fun _ => rfl

end

section

variable {p : Platform} {app : AppState} {input : ApprovalInput} {s : Serving}

def Serving.approvals (s : Serving) : List ApprovalRow := s.app.db.approvalRequests

theorem tickFree_approvals : TickFree Serving.approvals := fun _ => rfl

/-- The effect of a handler on the requests, as a postcondition. -/
def ApprovalInput.Affects (p : Platform) (input : ApprovalInput) (app : AppState)
    (outcome : Except Failure ApprovalAnswer) (finish : Serving) : Prop :=
  ApprovalEffect p input app.db.approvalRequests outcome finish.approvals

theorem createApprovalRequest_effect {agentId : Uuid} {principalId resourceId : Option Uuid}
    {action : String} {requestedScopes : List String} {ttlSeconds : Nat}
    (call : input.call = .create agentId principalId resourceId action requestedScopes ttlSeconds) :
    (Database.createApprovalRequest p agentId principalId resourceId action requestedScopes
      ttlSeconds).WP (fun outcome finish => input.Affects p app (outcome.map .request) finish)
        (input.serving app) := by
  have hhalted : ¬ input.Proceeds app.db.approvalRequests := by
    rw [ApprovalInput.Proceeds, call]
    exact id
  refine Action.WP.bind_of (fun id s₁ hid => ?_) (by intro _ _ h; cases h)
  cases hid
  refine Action.WP.bind_of (fun now s₂ hnow => ?_) (by intro _ _ h; cases h)
  cases hnow
  cases hexpiry : ((input.serving app).next.tape.now (input.serving app).next.tick).addSeconds
      (asI64 ttlSeconds) with
  | none => exact .failed hhalted
  | some expiresAt =>
      apply Action.WP.bind_of
      · intro _ s₃ hinsert
        obtain ⟨-, db, hdb, rfl⟩ := sql_eq_ok.mp hinsert
        obtain ⟨hfresh, -, rfl⟩ := Db.insertApprovalRequest_eq_ok.mp hdb
        apply (Database.keeps_getApprovalRequest tickFree_approvals _).wp
        intro outcome finish hkept
        rw [ApprovalInput.Affects, hkept]
        refine .filed call hexpiry rfl rfl rfl rfl fun old hold heq => ?_
        exact List.any_eq_false.mp hfresh old hold (beq_iff_eq.mpr heq)
      · intro e finish hinsert
        rw [sql_eq_error hinsert]
        exact .failed hhalted

theorem listPendingApprovals_effect (call : input.call = .listPending) :
    (Database.listPendingApprovals p).WP
      (fun outcome finish => input.Affects p app (outcome.map .pending) finish)
        (input.serving app) := by
  apply Action.WP.bind_of
  · intro rows s₁ hquery
    obtain ⟨hfault, rfl, rfl⟩ := query_eq_ok.mp hquery
    obtain ⟨requests, finish, hrun, hshown⟩ := Action.Returns.mapM
      (f := Database.approvalFromRow p) (·.id) (·.id)
      (fun row _ => .bind_run Database.parseOrNow_run (.bind_run Database.parseOrNow_run
        (.pure rfl))) _ (input.serving app).next
    have hkept : finish.approvals = app.db.approvalRequests :=
      (Action.Keeps.mapM (Database.keeps_approvalFromRow tickFree_approvals) _).eq hrun
    rw [Action.WP, hrun, ApprovalInput.Affects, hkept]
    exact .listed call hfault hshown
  · intro e finish hquery
    rw [sql_eq_error hquery]
    refine .failed fun hproceeds => ?_
    rw [ApprovalInput.Proceeds, call] at hproceeds
    cases hquery.symm.trans (query_run hproceeds)

/-- The row that an update resolves is found under its id afterwards. -/
theorem exists_find?_resolveRows {id approverId : Uuid} {approved : Bool}
    {reason token : Option String} {resolvedAt : String} {rows : List ApprovalRow}
    (present : ∃ row ∈ rows, row.isPending id = true) :
    ∃ row, (resolveRows id approverId approved reason token resolvedAt rows).find? (·.id == id) =
      some row := by
  rw [← Option.isSome_iff_exists, find?_resolveRows, Option.isSome_map, List.find?_isSome]
  obtain ⟨row, hrow, hpending⟩ := present
  exact ⟨row, hrow, (Bool.and_eq_true_iff.mp hpending).1⟩

theorem ApprovalInput.Proceeds.exists_pending {id approverId : Uuid} {approved : Bool}
    {reason : Option String} {rows : List ApprovalRow} (proceeds : input.Proceeds rows)
    (call : input.call = .resolve id approverId approved reason) :
    ∃ row ∈ rows, row.isPending id = true := by
  rw [ApprovalInput.Proceeds, call] at proceeds
  exact proceeds.2

/-- The last step of a resolution that has updated its row. -/
theorem resolve_readBack {id approverId : Uuid} {approved : Bool} {reason token : Option String}
    (call : input.call = .resolve id approverId approved reason)
    (proceeds : input.Proceeds app.db.approvalRequests) (issued : token.isSome = approved)
    (rows : s.approvals = resolveRows id approverId approved reason token
      (p.toRfc3339 (input.tape.now 0)) app.db.approvalRequests)
    (tape : s.tape = input.tape) (tick : s.tick = resolveTick approved + 1) :
    (Database.getApprovalRequest p id).WP
      (fun outcome finish => input.Affects p app (outcome.map .request) finish) s := by
  have hpresent : ∃ row, s.approvals.find? (·.id == id) = some row := by
    rw [rows]
    exact exists_find?_resolveRows (proceeds.exists_pending call)
  obtain ⟨row, hfound⟩ := hpresent
  have hkept : (Database.getApprovalRequest p id s).2.approvals = s.approvals :=
    Database.keeps_getApprovalRequest tickFree_approvals id s
  rw [Action.WP, ApprovalInput.Affects, hkept, rows]
  refine .resolved call proceeds issued ?_
  rw [ApprovalInput.ReadsBack, ← rows, ← tape, ← tick]
  cases hfault : s.tape.fault s.tick with
  | none =>
      have hrun : Database.getApprovalRequest p id s = _ :=
        Database.getApprovalRequest_run hfault hfound
      rw [if_pos rfl, hrun, tick]
      exact ⟨row, hfound, rfl⟩
  | some message =>
      obtain ⟨e, finish, hrun⟩ : ∃ e finish, Database.getApprovalRequest p id s =
        (.error e, finish) := Database.getApprovalRequest_fault hfault
      rw [if_neg (Option.some_ne_none message), hrun]
      exact ⟨e, rfl⟩

theorem resolveApprovalRequest_effect {id approverId : Uuid} {approved : Bool}
    {reason : Option String} (call : input.call = .resolve id approverId approved reason) :
    (Database.resolveApprovalRequest p id approverId approved reason).WP
      (fun outcome finish => input.Affects p app (outcome.map .request) finish)
        (input.serving app) := by
  refine Action.WP.bind_of (fun now s₁ hnow => ?_) (by intro _ _ h; cases h)
  cases hnow
  have hproceeds : input.Proceeds app.db.approvalRequests ↔
      input.tape.fault (resolveTick approved) = none ∧
        ∃ row ∈ app.db.approvalRequests, row.isPending id = true := by
    rw [ApprovalInput.Proceeds, call]
  -- A denial draws no token, so its update comes a step earlier.
  have htoken : ∃ token : Option String, token.isSome = approved ∧
      Database.approvalTokenFor approved (input.serving app).next =
        (.ok token, ⟨app, [], input.tape, resolveTick approved⟩) := by
    cases approved with
    | true => exact ⟨some _, rfl, rfl⟩
    | false => exact ⟨none, rfl, rfl⟩
  obtain ⟨token, hissued, hrun⟩ := htoken
  refine .bind_run hrun (.bind_of (fun changes s₃ hupdate => ?_) fun e finish hupdate => ?_)
  · obtain ⟨hfault, db, hdb, rfl⟩ := sql_eq_ok.mp hupdate
    cases hdb
    split
    · rename_i hnone
      have hfailed : ApprovalEffect p input app.db.approvalRequests
          (.error (.error (.database "approval request not found or already resolved")))
          (resolveRows id approverId approved reason token (p.toRfc3339 (input.tape.now 0))
            app.db.approvalRequests) := by
        have hkept : resolveRows id approverId approved reason token
            (p.toRfc3339 (input.tape.now 0)) app.db.approvalRequests = app.db.approvalRequests :=
          Db.updateWhere_eq_self (List.countP_eq_zero.mp hnone)
        rw [hkept]
        refine .failed fun h => ?_
        obtain ⟨-, row, hrow, hpending⟩ := hproceeds.mp h
        exact List.countP_eq_zero.mp hnone row hrow hpending
      exact hfailed
    · rename_i hsome
      have hpending := List.countP_pos_iff.mp (Nat.pos_of_ne_zero hsome)
      exact resolve_readBack call (hproceeds.mpr ⟨hfault, hpending⟩) hissued rfl rfl rfl
  · rw [sql_eq_error hupdate]
    refine .failed fun h => ?_
    cases hupdate.symm.trans (sql_run (hproceeds.mp h).1 rfl)

/-- Every call has one of the listed effects. -/
theorem ApprovalInput.effect (p : Platform) (app : AppState) (input : ApprovalInput) :
    ApprovalEffect p input app.db.approvalRequests (input.answer p app)
      (input.step p app).db.approvalRequests := by
  show (input.call.handle p).WP (input.Affects p app) (input.serving app)
  cases hcall : input.call with
  | create => exact wp_wrap (createApprovalRequest_effect hcall)
  | listPending => exact wp_wrap (listPendingApprovals_effect hcall)
  | resolve => exact wp_wrap (resolveApprovalRequest_effect hcall)

/-! ## Runs -/

def AppState.approval (app : AppState) (id : Uuid) : Option ApprovalRow :=
  app.db.approvalRequests.find? (·.id == id)

/-- The ids differ, and exactly the approved requests have a token. -/
structure SoundApprovals (rows : List ApprovalRow) : Prop where
  ids : (rows.map (·.id)).Nodup
  token : ∀ row ∈ rows, row.approvalToken.isSome = true ↔ row.status = .approved

theorem SoundApprovals.of_empty (h : app.db.approvalRequests = []) :
    SoundApprovals app.db.approvalRequests := by
  rw [h]
  exact ⟨List.nodup_nil, fun row hrow => absurd hrow List.not_mem_nil⟩

theorem SoundApprovals.approval (h : SoundApprovals app.db.approvalRequests) {row : ApprovalRow}
    (mem : row ∈ app.db.approvalRequests) : app.approval row.id = some row :=
  find?_of_nodup_map ApprovalRow.id h.ids mem

theorem SoundApprovals.step (h : SoundApprovals app.db.approvalRequests) :
    SoundApprovals (input.step p app).db.approvalRequests := by
  have heffect := input.effect p app
  generalize input.answer p app = outcome at heffect
  generalize (input.step p app).db.approvalRequests = after at heffect ⊢
  cases heffect with
  | failed => exact h
  | listed => exact h
  | filed _ _ _ pending token _ fresh =>
      refine ⟨nodup_append_fresh h.ids ?_, fun row hrow => ?_⟩
      · intro hmem
        obtain ⟨old, hold, hid⟩ := List.mem_map.mp hmem
        exact fresh old hold hid
      · rcases List.mem_append.mp hrow with hold | hnew
        · exact h.token row hold
        · rw [List.mem_singleton.mp hnew, token, pending]
          decide
  | resolved _ _ issued =>
      refine ⟨?_, fun row hrow => ?_⟩
      · rw [map_id_resolveRows]
        exact h.ids
      · obtain ⟨old, hold, rfl⟩ := Db.mem_updateWhere.mp hrow
        split
        · rw [ApprovalRow.resolvedBy, issued]
          split <;> simp_all
        · exact h.token old hold

/-- A request that is no longer pending stays as it is. -/
theorem ApprovalInput.approval_step {id : Uuid} {row : ApprovalRow}
    (found : app.approval id = some row) (resolved : row.status ≠ .pending) :
    (input.step p app).approval id = some row := by
  have heffect := input.effect p app
  unfold AppState.approval at found ⊢
  generalize input.answer p app = outcome at heffect
  generalize (input.step p app).db.approvalRequests = after at heffect ⊢
  cases heffect with
  | failed => exact found
  | listed => exact found
  | filed => rw [List.find?_append, found, Option.some_or]
  | resolved =>
      rw [find?_resolveRows, found, Option.map_some, if_neg]
      simp [ApprovalRow.isPending, resolved]

theorem status_resolvedBy_ne {approverId : Uuid} {approved : Bool} {reason token : Option String}
    {resolvedAt : String} {row : ApprovalRow} :
    (row.resolvedBy approverId approved reason token resolvedAt).status ≠ .pending := by
  rw [ApprovalRow.resolvedBy]
  cases approved with
  | true => exact ApprovalStatus.noConfusion
  | false => exact ApprovalStatus.noConfusion

/-- What a resolution of a request does. If there is no pending request with the id, or the
update fails, it is refused and changes nothing. Otherwise it resolves the request, which was
pending, and leaves the others; and it answers with the request, unless reading it back fails. -/
structure ApprovalInput.Resolution (p : Platform) (app : AppState) (input : ApprovalInput)
    (id approverId : Uuid) (approved : Bool) (reason : Option String) : Prop where
  refused : ¬ input.Proceeds app.db.approvalRequests →
    (∃ e, input.answer p app = .error e) ∧
      (input.step p app).db.approvalRequests = app.db.approvalRequests
  resolved : input.Proceeds app.db.approvalRequests → ∃ row token,
    app.approval id = some row ∧ row.status = .pending ∧ token.isSome = approved ∧
    (input.step p app).approval id = some (row.resolvedBy approverId approved reason token
      (p.toRfc3339 (input.tape.now 0))) ∧
    ∀ other, other ≠ id → (input.step p app).approval other = app.approval other
  answered : input.Proceeds app.db.approvalRequests →
    input.tape.fault (resolveTick approved + 1) = none →
      ∃ row, (input.step p app).approval id = some row ∧
        input.answer p app = .ok (.request (Database.approvalOfRow p row
          (input.tape.now (resolveTick approved + 2)) (input.tape.now (resolveTick approved + 3))))
  unread : input.Proceeds app.db.approvalRequests →
    input.tape.fault (resolveTick approved + 1) ≠ none → ∃ e, input.answer p app = .error e

theorem ApprovalInput.resolution {id approverId : Uuid} {approved : Bool} {reason : Option String}
    (sound : SoundApprovals app.db.approvalRequests)
    (call : input.call = .resolve id approverId approved reason) :
    input.Resolution p app id approverId approved reason := by
  have heffect := input.effect p app
  generalize hanswer : input.answer p app = outcome at heffect
  generalize hafter : (input.step p app).db.approvalRequests = after at heffect
  cases heffect with
  | failed halted =>
      exact ⟨fun _ => ⟨⟨_, hanswer⟩, hafter⟩, fun h => absurd h halted, fun h => absurd h halted,
        fun h => absurd h halted⟩
  | filed hcreate =>
      rw [call] at hcreate
      cases hcreate
  | listed hlist =>
      rw [call] at hlist
      cases hlist
  | @resolved _ _ _ _ token _ hresolve proceeds issued answered =>
      rw [call] at hresolve
      cases hresolve
      obtain ⟨row, hrow, hpending⟩ := proceeds.exists_pending call
      obtain ⟨hid, hstatus⟩ : row.id = id ∧ row.status = .pending := by
        simpa [ApprovalRow.isPending] using hpending
      have hfound := sound.approval hrow
      rw [hid] at hfound
      rw [ApprovalInput.ReadsBack, ← hafter] at answered
      refine ⟨fun h => absurd proceeds h, fun _ => ⟨row, token, hfound, hstatus, issued, ?_, ?_⟩,
        fun _ hworks => ?_, fun _ hfails => ?_⟩
      · rw [AppState.approval, hafter, find?_resolveRows, ← AppState.approval, hfound,
          Option.map_some, if_pos hpending]
      · intro other hother
        rw [AppState.approval, hafter, find?_resolveRows, AppState.approval]
        cases hsought : app.db.approvalRequests.find? (·.id == other) with
        | none => rfl
        | some row' =>
            have hid' : row'.id = other := by simpa using List.find?_some hsought
            rw [Option.map_some, if_neg]
            simp [ApprovalRow.isPending, hid', hother]
      · rw [if_pos hworks] at answered
        obtain ⟨row', hfound', rfl⟩ := answered
        exact ⟨row', hfound', hanswer⟩
      · rw [if_neg hfails] at answered
        obtain ⟨e, rfl⟩ := answered
        exact ⟨e, hanswer⟩

/-- A resolution that answers an error has changed nothing, unless it is the row that it has
updated that it could not read back. -/
theorem ApprovalInput.Resolution.unchanged {id approverId : Uuid} {approved : Bool}
    {reason : Option String} (h : input.Resolution p app id approverId approved reason)
    {e : Failure} (fails : input.answer p app = .error e)
    (readable : input.tape.fault (resolveTick approved + 1) = none) :
    (input.step p app).db.approvalRequests = app.db.approvalRequests := by
  by_cases hproceeds : input.Proceeds app.db.approvalRequests
  · obtain ⟨row, -, hanswer⟩ := h.answered hproceeds readable
    rw [fails] at hanswer
    cases hanswer
  · exact (h.refused hproceeds).2

theorem ApprovalInput.resolution_of_ok {id approverId : Uuid} {approved : Bool}
    {reason : Option String} (sound : SoundApprovals app.db.approvalRequests)
    (call : input.call = .resolve id approverId approved reason)
    (succeeds : (input.answer p app).isOk = true) :
    ∃ row token, app.approval id = some row ∧ row.status = .pending ∧
      (input.step p app).approval id = some (row.resolvedBy approverId approved reason token
        (p.toRfc3339 (input.tape.now 0))) := by
  have hresolution := ApprovalInput.resolution (p := p) sound call
  by_cases hproceeds : input.Proceeds app.db.approvalRequests
  · obtain ⟨row, token, hfound, hstatus, -, hafter, -⟩ := hresolution.resolved hproceeds
    exact ⟨row, token, hfound, hstatus, hafter⟩
  · obtain ⟨e, he⟩ := (hresolution.refused hproceeds).1
    rw [he] at succeeds
    cases succeeds

/-- A listing shows the requests that are pending. -/
theorem ApprovalInput.listing {requests : List Database.ApprovalRequest}
    (listed : input.answer p app = .ok (.pending requests)) :
    input.call = .listPending ∧ input.tape.fault 0 = none ∧ ∀ id, id ∈ requests.map (·.id) ↔
      ∃ row ∈ app.db.approvalRequests, row.status = .pending ∧ row.id = id := by
  have heffect := input.effect p app
  generalize input.answer p app = outcome at heffect listed
  generalize (input.step p app).db.approvalRequests = after at heffect
  cases heffect with
  | failed => cases listed
  | @filed _ _ _ _ _ _ _ _ outcome => cases outcome <;> cases listed
  | @resolved _ _ _ _ _ outcome => cases outcome <;> cases listed
  | listed hcall hproceeds shown =>
      cases listed
      refine ⟨hcall, hproceeds, fun id => ?_⟩
      rw [shown, Database.orderDesc]
      simp [and_assoc]

end

section

variable (p : Platform) (app : AppState) (inputs : List ApprovalInput)

def AppState.afterApprovals : AppState := inputs.foldl (ApprovalInput.step p) app

/-- A successful resolution of a request, with its answer. -/
def ApprovalInput.Resolves (id : Uuid)
    (answered : ApprovalInput × Except Failure ApprovalAnswer) : Prop :=
  (∃ approverId approved reason, answered.1.call = .resolve id approverId approved reason) ∧
    answered.2.isOk = true

/-- In a run, every request is resolved once. -/
structure ResolveOnce : Prop where
  once : (transcript (ApprovalInput.step p) (ApprovalInput.answer p) app inputs).Pairwise
    fun earlier later => ∀ id, ¬ (ApprovalInput.Resolves id earlier ∧
      ApprovalInput.Resolves id later)
  lasting : ∀ done later, done ++ later <+: inputs → ∀ id row,
    (app.afterApprovals p done).approval id = some row → row.status ≠ .pending →
      (app.afterApprovals p (done ++ later)).approval id = some row
  token : ∀ done, done <+: inputs → ∀ row ∈ (app.afterApprovals p done).db.approvalRequests,
    row.approvalToken.isSome = true ↔ row.status = .approved
  resolution : ∀ done input, done ++ [input] <+: inputs →
    ∀ id approverId approved reason, input.call = .resolve id approverId approved reason →
      input.Resolution p (app.afterApprovals p done) id approverId approved reason
  unchanged : ∀ done input, done ++ [input] <+: inputs →
    ∀ id approverId approved reason, input.call = .resolve id approverId approved reason →
      ∀ e, input.answer p (app.afterApprovals p done) = .error e →
        input.tape.fault (resolveTick approved + 1) = none →
          (app.afterApprovals p (done ++ [input])).db.approvalRequests =
            (app.afterApprovals p done).db.approvalRequests
  listing : ∀ done input, done ++ [input] <+: inputs → ∀ requests,
    input.answer p (app.afterApprovals p done) = .ok (.pending requests) →
      ∀ request ∈ requests, ∃ row,
        (app.afterApprovals p done).approval request.id = some row ∧ row.status = .pending

end

section

variable {p : Platform} {app : AppState} {inputs done later : List ApprovalInput}
  {input : ApprovalInput}

theorem afterApprovals_append : app.afterApprovals p (done ++ later) =
    (app.afterApprovals p done).afterApprovals p later :=
  List.foldl_append

theorem SoundApprovals.run (h : SoundApprovals app.db.approvalRequests)
    (inputs : List ApprovalInput) :
    SoundApprovals (app.afterApprovals p inputs).db.approvalRequests := by
  induction inputs generalizing app with
  | nil => exact h
  | cons input inputs ih => exact ih h.step

theorem approval_afterApprovals {id : Uuid} {row : ApprovalRow}
    (found : app.approval id = some row) (resolved : row.status ≠ .pending) :
    (app.afterApprovals p inputs).approval id = some row := by
  induction inputs generalizing app with
  | nil => exact found
  | cons input inputs ih => exact ih (ApprovalInput.approval_step found resolved)

/-- Every run over a table without requests resolves each of them at most once. The calls of
an approver are the two endpoints (`ApprovalCall.handle_resolve`). -/
theorem resolveOnce (start : app.db.approvalRequests = []) : ResolveOnce p app inputs := by
  have hstart : SoundApprovals app.db.approvalRequests := .of_empty start
  constructor
  · -- A request that has been resolved is no longer pending, and stays so.
    have halong : Along (ApprovalInput.step p) (fun _ _ => True) app inputs :=
      .of_forall fun _ _ _ => trivial
    refine Along.pairwise_transcript (fun app => SoundApprovals app.db.approvalRequests)
      (fun app answered => SoundApprovals app.db.approvalRequests ∧
        ∀ id, ApprovalInput.Resolves id answered →
          ∃ row, app.approval id = some row ∧ row.status ≠ .pending) ?_ ?_ ?_ ?_ hstart halong
    · intro app input sound _
      exact sound.step
    · intro app input sound _
      refine ⟨sound.step, ?_⟩
      rintro id ⟨⟨approverId, approved, reason, hcall⟩, hok⟩
      obtain ⟨row, token, -, -, hafter⟩ := ApprovalInput.resolution_of_ok sound hcall hok
      exact ⟨_, hafter, status_resolvedBy_ne⟩
    · rintro app input answered _ ⟨sound, hheld⟩
      refine ⟨sound.step, fun id hresolves => ?_⟩
      obtain ⟨row, hfound, hstatus⟩ := hheld id hresolves
      exact ⟨row, ApprovalInput.approval_step hfound hstatus, hstatus⟩
    · rintro app input answered _ ⟨sound, hheld⟩ id
        ⟨hearlier, ⟨approverId, approved, reason, hcall⟩, hok⟩
      obtain ⟨row, hfound, hstatus⟩ := hheld id hearlier
      obtain ⟨row', token, hfound', hpending, -⟩ := ApprovalInput.resolution_of_ok sound hcall hok
      rw [hfound] at hfound'
      cases hfound'
      exact hstatus hpending
  · intro done later _ id row hfound hresolved
    rw [afterApprovals_append]
    exact approval_afterApprovals hfound hresolved
  · intro done _
    exact (hstart.run done).token
  · intro done input _ id approverId approved reason hcall
    exact ApprovalInput.resolution (hstart.run done) hcall
  · intro done input _ id approverId approved reason hcall e hfails hreadable
    rw [afterApprovals_append]
    exact (ApprovalInput.resolution (hstart.run done) hcall).unchanged hfails hreadable
  · intro done input _ requests hlisted request hrequest
    obtain ⟨-, -, hshown⟩ := ApprovalInput.listing hlisted
    obtain ⟨row, hrow, hstatus, hid⟩ := (hshown request.id).mp (List.mem_map_of_mem hrequest)
    refine ⟨row, ?_, hstatus⟩
    rw [← hid]
    exact (hstart.run done).approval hrow

end

/-- A request of the enrolled agent, which one approver approves and another denies. -/
def disputed : List ApprovalInput := [
  ⟨.create ⟨300⟩ none none "deploy" ["write"] 300, .steady opening 700⟩,
  ⟨.resolve ⟨700⟩ ⟨200⟩ true none, .steady (opening + 1) 710⟩,
  ⟨.resolve ⟨700⟩ ⟨201⟩ false (some "too late"), .steady (opening + 2) 720⟩,
  ⟨.listPending, .steady (opening + 3) 730⟩]

theorem resolveOnce_disputed : ResolveOnce delegationPlatform
    (initialWorld.run delegationPlatform enrolment).app disputed :=
  resolveOnce (by decide)

end Patroclus
