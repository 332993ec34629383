import Patroclus.Foundation.Run
import Patroclus.Properties.ApprovalResolution

/-!
# The expiry of approval requests

Every request is stored with a time at which it expires, and there is a status for
requests that have. No statement compares that time with the clock, and none sets the
status: an expired request is still listed as pending, and may still be approved.
-/

namespace Patroclus

open Foundation

/-- The request has expired at a time. -/
def ApprovalRow.ExpiredAt (p : Platform) (now : Instant) (row : ApprovalRow) : Prop :=
  ∃ expiresAt ∈ p.parseFromRfc3339 row.expiresAt, expiresAt < now

instance (p : Platform) (now : Instant) (row : ApprovalRow) : Decidable (row.ExpiredAt p now) :=
  inferInstanceAs (Decidable (∃ expiresAt ∈ p.parseFromRfc3339 row.expiresAt, expiresAt < now))

namespace ApprovalInput

/-- The time of a call: the first reading of its clock, and the one that a resolution records. -/
def now (input : ApprovalInput) : Instant := input.tape.now 0

/-- A call that would approve a request, or show it as pending. -/
def TakesUp (id : Uuid) (input : ApprovalInput) : Prop :=
  match input.call with
  | .create .. => False
  | .listPending => True
  | .resolve sought _ approved _ => sought = id ∧ approved = true

variable (p : Platform) (app : AppState) (input : ApprovalInput)

/-- The call honours the expiry of every request. -/
structure Honours : Prop where
  approved : ∀ id row row', app.approval id = some row →
    (input.step p app).approval id = some row' →
    row.ExpiredAt p input.now → row'.status = .approved → row.status = .approved
  token : ∀ id row row', app.approval id = some row → (input.step p app).approval id = some row' →
    row.ExpiredAt p input.now → row'.approvalToken.isSome = true → row.approvalToken.isSome = true
  listed : ∀ requests, input.answer p app = .ok (.pending requests) → ∀ request ∈ requests,
    ∀ row, app.approval request.id = some row → ¬ row.ExpiredAt p input.now

/-- The pending requests that the call takes up have not expired, unless it fails before. -/
def InTime : Prop :=
  input.Proceeds app.db.approvalRequests → ∀ row ∈ app.db.approvalRequests,
    row.status = .pending → input.TakesUp row.id → ¬ row.ExpiredAt p input.now

variable {p app input}

theorem Honours.of_inTime (sound : SoundApprovals app.db.approvalRequests)
    (h : input.InTime p app) : input.Honours p app := by
  -- What a step makes of a row that has expired.
  have hstep : ∀ id row row', app.approval id = some row →
      (input.step p app).approval id = some row' → row.ExpiredAt p input.now →
        row' = row ∨ row'.status = .denied ∧ row'.approvalToken.isSome = false := by
    intro id row row' hfound hfound' hexpired
    have heffect := input.effect p app
    unfold AppState.approval at hfound hfound'
    generalize input.answer p app = outcome at heffect
    generalize (input.step p app).db.approvalRequests = after at heffect hfound'
    cases heffect with
    | failed => exact .inl (Option.some.inj (hfound'.symm.trans hfound))
    | listed => exact .inl (Option.some.inj (hfound'.symm.trans hfound))
    | filed =>
        rw [List.find?_append, hfound, Option.some_or] at hfound'
        exact .inl (Option.some.inj hfound').symm
    | @resolved sought _ approved _ _ _ hcall hproceeds hissued =>
        rw [find?_resolveRows, hfound, Option.map_some] at hfound'
        split at hfound'
        · rename_i hpending
          obtain ⟨hid, hstatus⟩ : row.id = sought ∧ row.status = .pending := by
            simpa [ApprovalRow.isPending] using hpending
          cases approved with
          | true =>
              have htakes : input.TakesUp row.id := by
                rw [TakesUp, hcall]
                exact ⟨hid.symm, rfl⟩
              exact absurd hexpired
                (h hproceeds row (List.mem_of_find?_eq_some hfound) hstatus htakes)
          | false =>
              cases hfound'
              exact .inr ⟨rfl, hissued⟩
        · exact .inl (Option.some.inj hfound').symm
  constructor
  · intro id row row' hfound hfound' hexpired hstatus
    rcases hstep id row row' hfound hfound' hexpired with rfl | ⟨hdenied, -⟩
    · exact hstatus
    · rw [hdenied] at hstatus
      cases hstatus
  · intro id row row' hfound hfound' hexpired htoken
    rcases hstep id row row' hfound hfound' hexpired with rfl | ⟨-, hnone⟩
    · exact htoken
    · rw [hnone] at htoken
      cases htoken
  · intro requests hlisted request hrequest row hfound hexpired
    obtain ⟨hcall, hproceeds, hshown⟩ := ApprovalInput.listing hlisted
    obtain ⟨shown, hmem, hstatus, hid⟩ := (hshown request.id).mp (List.mem_map_of_mem hrequest)
    have hsame := sound.approval hmem
    rw [hid, hfound] at hsame
    cases hsame
    refine h ?_ row hmem hstatus ?_ hexpired
    · rw [Proceeds, hcall]
      exact hproceeds
    · rw [TakesUp, hcall]
      trivial

theorem inTime_of_honours (sound : SoundApprovals app.db.approvalRequests)
    (h : input.Honours p app) : input.InTime p app := by
  intro hproceeds row hrow hstatus htakes hexpired
  have hfound := sound.approval hrow
  have heffect := input.effect p app
  have happroved := h.approved row.id row
  have hlisted := h.listed
  unfold AppState.approval at happroved hfound
  generalize hanswer : input.answer p app = outcome at heffect hlisted
  generalize (input.step p app).db.approvalRequests = after at heffect happroved
  cases heffect with
  | failed halted => exact halted hproceeds
  | filed hcall =>
      rw [TakesUp, hcall] at htakes
      exact htakes
  | listed hcall _ shown =>
      obtain ⟨-, -, hshown⟩ := ApprovalInput.listing hanswer
      have hid := (hshown row.id).mpr ⟨row, hrow, hstatus, rfl⟩
      obtain ⟨request, hrequest, hid⟩ := List.mem_map.mp hid
      refine hlisted _ rfl request hrequest row ?_ hexpired
      rw [hid]
      exact hfound
  | @resolved sought _ approved _ _ _ hcall =>
      rw [TakesUp, hcall] at htakes
      obtain ⟨rfl, rfl⟩ := htakes
      have hpending : row.isPending row.id = true := by
        simp [ApprovalRow.isPending, hstatus]
      have hafter := happroved _ hfound (by
        rw [find?_resolveRows, hfound, Option.map_some, if_pos hpending]) hexpired rfl
      rw [hstatus] at hafter
      cases hafter

end ApprovalInput

section

variable (p : Platform) (app : AppState) (inputs : List ApprovalInput)

/-- Every call of a run honours the expiry of every request. -/
def ExpiryHonoured : Prop :=
  ∀ done input, done ++ [input] <+: inputs → input.Honours p (app.afterApprovals p done)

end

section

variable {p : Platform} {app : AppState} {inputs : List ApprovalInput}

/-- A run over a table without requests honours their expiry exactly if no call of it takes
up a pending request that has expired. -/
theorem expiryHonoured_iff (start : app.db.approvalRequests = []) :
    ExpiryHonoured p app inputs ↔
      Along (ApprovalInput.step p) (fun app input => input.InTime p app) app inputs := by
  have hexact (app : AppState) (input : ApprovalInput) (_ : True)
      (sound : SoundApprovals app.db.approvalRequests) : input.Honours p app ↔ input.InTime p app :=
    ⟨ApprovalInput.inTime_of_honours sound, .of_inTime sound⟩
  have hkept (app : AppState) (input : ApprovalInput)
      (sound : SoundApprovals app.db.approvalRequests) (_ : input.Honours p app) :
      SoundApprovals (input.step p app).db.approvalRequests := sound.step
  rw [ExpiryHonoured,
    ← Along.congr_of_invariant hexact hkept (fun _ _ => trivial) (.of_empty start)]
  exact Along.iff_forall.symm

end

/-- A request that lives five minutes, listed and approved at given seconds. -/
def approvedAt (listing approval : Nat) : List ApprovalInput := [
  ⟨.create ⟨300⟩ none none "deploy" ["write"] 300, .steady opening 700⟩,
  ⟨.listPending, .steady (listing * 1000000000) 710⟩,
  ⟨.resolve ⟨700⟩ ⟨200⟩ true none, .steady (approval * 1000000000) 720⟩]

def enrolledApp : AppState := (initialWorld.run delegationPlatform enrolment).app

theorem expiryHonoured_approvedAt :
    ExpiryHonoured delegationPlatform enrolledApp (approvedAt 399 400) := by
  have hlisting : ∀ row ∈ (enrolledApp.afterApprovals delegationPlatform
      ((approvedAt 399 400).take 1)).db.approvalRequests,
        ¬ row.ExpiredAt delegationPlatform (399 * 1000000000) := by decide +kernel
  have happroval : ∀ row ∈ (enrolledApp.afterApprovals delegationPlatform
      ((approvedAt 399 400).take 2)).db.approvalRequests,
        ¬ row.ExpiredAt delegationPlatform (400 * 1000000000) := by decide +kernel
  exact (expiryHonoured_iff (by decide)).mpr ⟨fun h => h.elim, fun _ row hrow _ _ =>
    hlisting row hrow, fun _ row hrow _ _ => happroval row hrow, trivial⟩

/-- The expiry as a promise about all runs. -/
def ApprovalsExpire : Prop :=
  ∀ (p : Platform) (app : AppState) (inputs : List ApprovalInput), app.db.approvalRequests = [] →
    (inputs.Pairwise fun input later => input.now ≤ later.now) → ExpiryHonoured p app inputs

/-- The request is listed and approved after it has expired. -/
theorem not_approvalsExpire : ¬ ApprovalsExpire := by
  intro h
  let done := (approvedAt 401 402).take 2
  let approving : ApprovalInput := ⟨.resolve ⟨700⟩ ⟨200⟩ true none, .steady (402 * 1000000000) 720⟩
  have hhonoured := h delegationPlatform enrolledApp (approvedAt 401 402) (by decide) (by decide)
    done approving (List.prefix_rfl)
  have hstart : SoundApprovals enrolledApp.db.approvalRequests := .of_empty (by decide)
  have hsound := hstart.run (p := delegationPlatform) done
  have hlate := ApprovalInput.inTime_of_honours hsound hhonoured
  obtain ⟨row, hrow, hstatus, hid, hexpired⟩ : ∃ row ∈ (enrolledApp.afterApprovals
      delegationPlatform ((approvedAt 401 402).take 2)).db.approvalRequests,
        row.status = .pending ∧ row.id = ⟨700⟩ ∧
          row.ExpiredAt delegationPlatform (402 * 1000000000) := by decide +kernel
  exact hlate ⟨rfl, row, hrow, by simp [ApprovalRow.isPending, hstatus, hid]⟩ row hrow hstatus
    ⟨hid.symm, rfl⟩ hexpired

end Patroclus
