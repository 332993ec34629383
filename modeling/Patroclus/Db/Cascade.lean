import Patroclus.Foundation.Descent
import Patroclus.Db.Completion

/-!
# The cascade of a revocation

`revoke_grant_sync` is a sweep: it closes a grant, lists the children that are open then, and
goes on with each of them. What it does to the table is stated for every pattern of
statements and rows that fail. It is clear if none of its steps fails.
-/

namespace Patroclus

open Foundation

/-- The grants under their parents; a grant is marked if it is revoked. -/
def grantTree : Descent GrantRow Uuid where
  id row := row.id
  parent row := row.parentGrantId
  marked row := row.revokedAt.isSome

/-- Row by row, a grant is as it was, or was open and has been revoked. -/
def GrantsRevoked (rows rows' : List GrantRow) : Prop :=
  List.Forall₂ (fun row row' => row' = row ∨ row.revokedAt = none ∧
    ∃ revokedAt, row' = { row with revokedAt := some revokedAt }) rows rows'

/-- An unrevoked grant under its parent. -/
def LiveChild (rows : List GrantRow) (parent id : Uuid) : Prop :=
  ∃ row ∈ rows, row.id = id ∧ row.parentGrantId = some parent ∧ row.revokedAt = none

/-- Reached along child links through grants that are all unrevoked. -/
def LiveBelow (rows : List GrantRow) : Uuid → Uuid → Prop := Relation.TransGen (LiveChild rows)

/-- What a step of the tape is used for. A reading of the clock does not fail. -/
inductive TapeStep where
  | clock
  | statement

/-- None of these steps fails. -/
def Tape.Clear (tape : Tape) : Nat → List TapeStep → Prop
  | _, [] => True
  | tick, .clock :: rest => tape.Clear (tick + 1) rest
  | tick, .statement :: rest => tape.fault tick = none ∧ tape.Clear (tick + 1) rest

/-- Which of the next rows are delivered. -/
def Tape.delivered {α : Type} (tape : Tape) : Nat → List α → List α
  | _, [] => []
  | tick, row :: rest =>
      if tape.fault tick ≠ none then []
      else if tape.fault (tick + 1) ≠ none then tape.delivered (tick + 2) rest
      else row :: tape.delivered (tick + 2) rest

/-- How many steps the delivery of so many rows takes. -/
def Tape.deliverySteps (tape : Tape) : Nat → Nat → Nat
  | _, 0 => 0
  | tick, rows + 1 =>
      if tape.fault tick ≠ none then 1 else tape.deliverySteps (tick + 2) rows + 2

/-- The steps in which the rows are delivered if none fails. -/
def rowSteps {α : Type} (rows : List α) : List TapeStep :=
  rows.flatMap fun _ => [.statement, .statement]

/-- The steps of `revoke_grant_sync` before it recurses: the clock, the update, the query,
and the rows. -/
def listingSteps (listed : List Uuid) : List TapeStep :=
  .clock :: .statement :: .statement :: rowSteps listed

/-- The steps of a revocation of which none fails. -/
def cascadeSteps (rows : List GrantRow) (fuel : Nat) (opens : Finset Uuid) (id : Uuid) :
    List TapeStep :=
  Sweep.itinerary (grantTree.children rows) listingSteps fuel opens id

namespace Serving

/-- The grants that are not revoked. -/
def openGrants (s : Serving) : Finset Uuid := grantTree.opens s.app.db.grants

end Serving

/-- What a call of `revoke_grant_sync` does to a table that was `rows` before. -/
structure CascadeRun (rows : List GrantRow) (fuel : Nat) (id : Uuid) (s : Serving)
    (outcome : Except Failure (List Uuid)) (finish : Serving) : Prop where
  tape : finish.tape = s.tape
  revoked : GrantsRevoked s.app.db.grants finish.app.db.grants
  sweeps : Sweep.Sweeps (grantTree.children rows)
    (s.tape.Clear s.tick (cascadeSteps rows fuel s.openGrants id)) s.openGrants id
      outcome.toOption finish.openGrants
  ticks : s.tape.Clear s.tick (cascadeSteps rows fuel s.openGrants id) →
    finish.tick = s.tick + (cascadeSteps rows fuel s.openGrants id).length
  closes : s.tape.fault (s.tick + 1) = none → id ∉ finish.openGrants
  refused : s.tape.fault (s.tick + 1) ≠ none →
    (∃ e, outcome = .error e) ∧ finish.openGrants = s.openGrants

/-- What the calls for a list of grants do to it. -/
structure CascadeRuns (rows : List GrantRow) (fuel : Nat) (ids : List Uuid) (s : Serving)
    (outcome : Except Failure (List (List Uuid))) (finish : Serving) : Prop where
  tape : finish.tape = s.tape
  revoked : GrantsRevoked s.app.db.grants finish.app.db.grants
  sweeps : Sweep.SweepsAll (grantTree.children rows)
    (s.tape.Clear s.tick (ids.flatMap (cascadeSteps rows fuel s.openGrants))) s.openGrants ids
      outcome.toOption finish.openGrants
  ticks : s.tape.Clear s.tick (ids.flatMap (cascadeSteps rows fuel s.openGrants)) →
    finish.tick = s.tick + (ids.flatMap (cascadeSteps rows fuel s.openGrants)).length
  closes : ∀ c ∈ ids.head?, s.tape.fault (s.tick + 1) = none → c ∉ finish.openGrants
  refused : ids ≠ [] → s.tape.fault (s.tick + 1) ≠ none →
    (∃ e, outcome = .error e) ∧ finish.openGrants = s.openGrants

section

variable {p : Platform} {s finish : Serving} {id : Uuid} {rows rows' rows'' : List GrantRow}

/-! ## Tables of grants -/

namespace GrantsRevoked

theorem refl (rows : List GrantRow) : GrantsRevoked rows rows :=
  List.forall₂_same.mpr fun _ _ => .inl rfl

theorem trans (h : GrantsRevoked rows rows') (h' : GrantsRevoked rows' rows'') :
    GrantsRevoked rows rows'' := by
  induction h generalizing rows'' with
  | nil => exact h'
  | cons hrow _ ih =>
      cases h' with
      | cons hrow' hrest =>
          refine .cons ?_ (ih hrest)
          obtain rfl | ⟨hopen, revokedAt, rfl⟩ := hrow
          · exact hrow'
          · obtain rfl | ⟨hclosed, -⟩ := hrow'
            · exact .inr ⟨hopen, revokedAt, rfl⟩
            · cases hclosed

theorem advances (h : GrantsRevoked rows rows') : grantTree.Advances rows rows' := by
  refine List.Forall₂.imp (fun row row' hrow => ?_) h
  obtain rfl | ⟨-, revokedAt, rfl⟩ := hrow
  · exact ⟨rfl, rfl, fun h => h⟩
  · exact ⟨rfl, rfl, fun _ => rfl⟩

end GrantsRevoked

theorem grant_open_iff {row : GrantRow} : grantTree.marked row = false ↔ row.revokedAt = none :=
  Option.isSome_eq_false_iff.trans Option.isNone_iff_eq_none

theorem below_iff_liveBelow (distinct : (rows.map grantTree.id).Nodup) {j : Uuid} :
    Sweep.Below (grantTree.children rows) (grantTree.opens rows) id j ↔ LiveBelow rows id j := by
  have hleads : Sweep.Leads (grantTree.children rows) (grantTree.opens rows) = LiveChild rows := by
    funext k j
    refine propext ⟨?_, ?_⟩
    · rintro ⟨hchild, hopen⟩
      obtain ⟨row, hrow, hparent, rfl⟩ := Descent.mem_children.mp hchild
      exact ⟨row, hrow, rfl, hparent,
        grant_open_iff.mp ((Descent.mem_opens_iff distinct hrow).mp hopen)⟩
    · rintro ⟨row, hrow, rfl, hparent, hopen⟩
      exact ⟨Descent.mem_children.mpr ⟨row, hrow, hparent, rfl⟩,
        Descent.mem_opens.mpr ⟨row, hrow, grant_open_iff.mpr hopen, rfl⟩⟩
  rw [LiveBelow, ← hleads]

theorem revoked_iff_not_open (distinct : (rows.map grantTree.id).Nodup) {row : GrantRow}
    (mem : row ∈ rows) : row.revokedAt.isSome = true ↔ row.id ∉ grantTree.opens rows := by
  show grantTree.marked row = true ↔ grantTree.id row ∉ grantTree.opens rows
  rw [Descent.mem_opens_iff distinct mem, Bool.not_eq_false]

/-- A table in which nothing has been closed has not changed. -/
theorem GrantsRevoked.eq_iff (h : GrantsRevoked rows rows')
    (distinct : (rows.map grantTree.id).Nodup) :
    rows' = rows ↔ grantTree.opens rows' = grantTree.opens rows := by
  refine ⟨fun heq => by rw [heq], fun hopens => ?_⟩
  obtain ⟨hlength, hpairs⟩ := List.forall₂_iff_zip.mp h
  have hsame : List.Forall₂ (· = ·) rows rows' := by
    refine List.forall₂_iff_zip.mpr ⟨hlength, fun {row row'} hpair => ?_⟩
    obtain ⟨hrow, hrow'⟩ := List.of_mem_zip hpair
    obtain rfl | ⟨hopen, revokedAt, rfl⟩ := hpairs hpair
    · rfl
    · have hclosed := (revoked_iff_not_open (h.advances.map_id ▸ distinct) hrow').mp rfl
      exact absurd (hopens ▸ Descent.mem_opens.mpr
        ⟨row, hrow, grant_open_iff.mpr hopen, rfl⟩) hclosed
  exact (List.forall₂_eq_eq_eq ▸ hsame : rows = rows').symm

/-- The update closes the grant, and no other one. -/
theorem revokeGrantRow_run {now : String} {db db' : Db}
    (run : Db.revokeGrantRow id now db = .ok ((), db')) :
    GrantsRevoked db.grants db'.grants ∧
      grantTree.opens db'.grants = (grantTree.opens db.grants).erase id := by
  cases run
  constructor
  · refine List.forall₂_map_right_iff.mpr (List.forall₂_same.mpr fun row _ => ?_)
    dsimp only
    split
    · rename_i hcond
      exact .inr ⟨Option.isNone_iff_eq_none.mp (Bool.and_eq_true_iff.mp hcond).2, now, rfl⟩
    · exact .inl rfl
  · ext j
    rw [Finset.mem_erase, Descent.mem_opens, Descent.mem_opens]
    constructor
    · rintro ⟨row, hrow, hopen, rfl⟩
      obtain ⟨old, hold, rfl⟩ := Db.mem_updateWhere.mp hrow
      split at hopen
      · cases hopen
      · rename_i hcond
        rw [if_neg hcond]
        refine ⟨?_, old, hold, hopen, rfl⟩
        rintro rfl
        exact hcond (Bool.and_eq_true_iff.mpr
          ⟨beq_self_eq_true _, Option.isSome_eq_false_iff.mp hopen⟩)
    · rintro ⟨hother, row, hrow, hopen, rfl⟩
      refine ⟨row, Db.mem_updateWhere.mpr ⟨row, hrow, if_neg fun hcond => ?_⟩, hopen, rfl⟩
      exact hother (beq_iff_eq.mp (Bool.and_eq_true_iff.mp hcond).1)

/-! ## Steps that do not fail -/

theorem Tape.clear_append {tape : Tape} {tick : Nat} {steps more : List TapeStep} :
    tape.Clear tick (steps ++ more) ↔
      tape.Clear tick steps ∧ tape.Clear (tick + steps.length) more := by
  induction steps generalizing tick with
  | nil => exact (iff_of_eq (true_and _)).symm
  | cons step steps ih =>
      rw [List.length_cons, Nat.add_comm steps.length, ← Nat.add_assoc]
      cases step with
      | clock => exact ih
      | statement => exact (and_congr_right fun _ => ih).trans and_assoc.symm

theorem Tape.Clear.of_faultless {tape : Tape} (faults : ∀ n, tape.fault n = none) {tick : Nat}
    {steps : List TapeStep} : tape.Clear tick steps := by
  induction steps generalizing tick with
  | nil => trivial
  | cons step steps ih =>
      cases step with
      | clock => exact ih
      | statement => exact ⟨faults tick, ih⟩

section

variable {α : Type} {tape : Tape} {tick : Nat} {rows : List α}

theorem Tape.delivered_sublist (tape : Tape) (tick : Nat) (rows : List α) :
    (tape.delivered tick rows).Sublist rows := by
  induction rows generalizing tick with
  | nil => exact List.Sublist.refl _
  | cons row rest ih =>
      rw [Tape.delivered]
      split
      · exact List.nil_sublist _
      · split
        · exact (ih (tick + 2)).cons row
        · exact (ih (tick + 2)).cons_cons row

/-- All rows are delivered exactly if none of the steps fails. -/
theorem Tape.delivered_eq_iff : tape.delivered tick rows = rows ↔
    tape.Clear tick (rowSteps rows) := by
  induction rows generalizing tick with
  | nil => exact iff_of_true rfl trivial
  | cons row rest ih =>
      show _ ↔ tape.fault tick = none ∧ tape.fault (tick + 1) = none ∧
        tape.Clear (tick + 2) (rowSteps rest)
      rw [Tape.delivered, ← ih]
      split
      · rename_i hstep
        exact iff_of_false (List.cons_ne_nil row rest).symm fun h => hstep h.1
      · rename_i hstep
        rw [and_iff_right (not_not.mp hstep)]
        split
        · rename_i hrow
          refine iff_of_false (fun heq => ?_) fun h => hrow h.1
          have hlength := (tape.delivered_sublist (tick + 2) rest).length_le
          rw [heq, List.length_cons] at hlength
          exact Nat.not_succ_le_self _ hlength
        · rename_i hrow
          rw [and_iff_right (not_not.mp hrow), List.cons_inj_right]

theorem Tape.Clear.deliverySteps_eq (clear : tape.Clear tick (rowSteps rows)) :
    tape.deliverySteps tick rows.length = (rowSteps rows).length := by
  induction rows generalizing tick with
  | nil => rfl
  | cons row rest ih =>
      obtain ⟨hstep, -, hrest⟩ : tape.fault tick = none ∧ tape.fault (tick + 1) = none ∧
        tape.Clear (tick + 2) (rowSteps rest) := clear
      rw [List.length_cons, Tape.deliverySteps, if_neg (not_not.mpr hstep), ih hrest]
      rfl

/-- Rows are delivered up to the first step that fails, except for those that cannot be
converted. -/
theorem deliverRows_run (rows : List α) (s : Serving) :
    (deliverRows rows).Returns (fun delivered finish =>
      delivered = s.tape.delivered s.tick rows ∧ finish.still = s.still ∧
      finish.tick = s.tick + s.tape.deliverySteps s.tick rows.length) s := by
  induction rows generalizing s with
  | nil => exact .pure ⟨rfl, rfl, rfl⟩
  | cons row rest ih =>
      obtain ⟨delivered, finish, hrun, hdelivered, hstill, htick⟩ := ih s.next.next
      unfold Action.Returns deliverRows
      rw [List.length_cons, Tape.delivered, Tape.deliverySteps]
      cases hstep : s.tape.fault s.tick with
      | some message =>
          rw [if_pos (Option.some_ne_none message), if_pos (Option.some_ne_none message)]
          exact ⟨[], s.next, rfl, rfl, rfl, rfl⟩
      | none =>
          have hticks : finish.tick =
              s.tick + (s.tape.deliverySteps (s.tick + 2) rest.length + 2) := by
            rw [htick, Nat.add_comm (Tape.deliverySteps _ _ _), ← Nat.add_assoc]
            rfl
          rw [if_neg (not_not.mpr rfl), if_neg (not_not.mpr rfl)]
          cases hrow : s.tape.fault (s.tick + 1) with
          | some message =>
              rw [if_pos (Option.some_ne_none message)]
              exact ⟨delivered, finish, hrun, hdelivered, hstill, hticks⟩
          | none =>
              rw [if_neg (not_not.mpr rfl)]
              exact ⟨row :: delivered, finish, Action.bind_run_ok hrun,
                congrArg (row :: ·) hdelivered, hstill, hticks⟩

end

/-! ## The recursion -/

/-- A call that is clear returns. -/
theorem CascadeRun.returns {fuel : Nat} {outcome : Except Failure (List Uuid)}
    (h : CascadeRun rows fuel id s outcome finish)
    (clear : s.tape.Clear s.tick (cascadeSteps rows fuel s.openGrants id)) :
    ∃ ids, outcome = .ok ids := by
  obtain ⟨ids, hids⟩ := h.sweeps.returns clear
  cases outcome with
  | error e => cases hids
  | ok ids => exact ⟨ids, rfl⟩

variable {fuel : Nat}

/-- A first call that fails ends the calls. -/
theorem CascadeRun.stop {ids : List Uuid} {e : Failure}
    (h : CascadeRun rows fuel id s (.error e) finish) :
    CascadeRuns rows fuel (id :: ids) s (.error e) finish where
  tape := h.tape
  revoked := h.revoked
  sweeps := .stop h.sweeps fun hclear => (Tape.clear_append.mp hclear).1
  ticks := by
    intro hclear
    obtain ⟨swept, hswept⟩ := h.returns (Tape.clear_append.mp hclear).1
    cases hswept
  closes := by
    rintro _ ⟨⟩
    exact h.closes
  refused := fun _ hfault => ⟨⟨e, rfl⟩, (h.refused hfault).2⟩

/-- A first call that returns is followed by the others. -/
theorem CascadeRun.cons {c : Uuid} {rest swept : List Uuid} {middle : Serving}
    {outcome : Except Failure (List (List Uuid))}
    (h : CascadeRun rows fuel c s (.ok swept) middle)
    (siblings : Sweep.Siblings (grantTree.children rows) s.openGrants id (c :: rest))
    (others : CascadeRuns rows fuel rest middle outcome finish) :
    CascadeRuns rows fuel (c :: rest) s (outcome.map (swept :: ·)) finish := by
  -- the steps for the others are the same after the first call
  have hsteps : rest.flatMap (cascadeSteps rows fuel s.openGrants) =
      rest.flatMap (cascadeSteps rows fuel middle.openGrants) :=
    List.flatMap_congr fun r hr => Sweep.itinerary_congr
      (fun j => siblings.remains h.sweeps.sound hr) h.sweeps.subset
  have hclear : s.tape.Clear s.tick ((c :: rest).flatMap (cascadeSteps rows fuel s.openGrants)) ↔
      s.tape.Clear s.tick (cascadeSteps rows fuel s.openGrants c) ∧
      middle.tape.Clear middle.tick (rest.flatMap (cascadeSteps rows fuel middle.openGrants)) := by
    rw [List.flatMap_cons, Tape.clear_append, hsteps, h.tape]
    exact and_congr_right fun hfirst => by rw [h.ticks hfirst]
  refine ⟨others.tape.trans h.tape, h.revoked.trans others.revoked, ?_, fun hall => ?_, ?_, ?_⟩
  · rw [hclear]
    have hsweeps := Sweep.SweepsAll.cons siblings h.sweeps others.sweeps
    cases outcome with
    | error e => exact hsweeps
    | ok lists => exact hsweeps
  · obtain ⟨hthis, hthose⟩ := hclear.mp hall
    rw [others.ticks hthose, h.ticks hthis, List.flatMap_cons, List.length_append, hsteps,
      Nat.add_assoc]
  · rintro _ ⟨⟩ hfault hremains
    exact h.closes hfault (others.sweeps.subset hremains)
  · intro _ hfault
    obtain ⟨⟨e, he⟩, -⟩ := h.refused hfault
    cases he

/-- The calls for siblings, one after the other. -/
theorem cascadeRuns_mapM {ids : List Uuid} {outcome : Except Failure (List (List Uuid))}
    (calls : ∀ {c s outcome finish}, GrantsRevoked rows s.app.db.grants →
      Sweep.Enough fuel s.openGrants c → Database.revokeGrantSync p fuel c s = (outcome, finish) →
        CascadeRun rows fuel c s outcome finish)
    (since : GrantsRevoked rows s.app.db.grants)
    (siblings : Sweep.Siblings (grantTree.children rows) s.openGrants id ids)
    (few : s.openGrants.card ≤ fuel)
    (run : ids.mapM (Database.revokeGrantSync p fuel) s = (outcome, finish)) :
    CascadeRuns rows fuel ids s outcome finish := by
  induction ids generalizing s outcome finish with
  | nil =>
      cases run
      exact ⟨rfl, .refl _, .nil, fun _ => rfl, nofun, fun h => absurd rfl h⟩
  | cons c rest ih =>
      rw [List.mapM_cons] at run
      have henough : Sweep.Enough fuel s.openGrants c :=
        .inr ⟨siblings.isOpen c List.mem_cons_self, few⟩
      cases hcall : Database.revokeGrantSync p fuel c s with
      | mk first middle =>
          have hfirst := calls since henough hcall
          cases first with
          | error e =>
              rw [Action.bind_run_error hcall] at run
              cases run
              exact hfirst.stop
          | ok swept =>
              rw [Action.bind_run_ok hcall] at run
              cases hrest : rest.mapM (Database.revokeGrantSync p fuel) middle with
              | mk others last =>
                  have hothers := ih (since.trans hfirst.revoked)
                    (siblings.tail hfirst.sweeps.subset hfirst.sweeps.sound)
                    ((Finset.card_le_card hfirst.sweeps.subset).trans few) hrest
                  have hall := hfirst.cons siblings hothers
                  cases others with
                  | error e =>
                      rw [Action.bind_run_error hrest] at run
                      cases run
                      exact hall
                  | ok lists =>
                      rw [Action.bind_run_ok hrest] at run
                      cases run
                      exact hall

/-- The children that a call lists once the grant is closed. -/
abbrev listedChildren (rows : List GrantRow) (opens : Finset Uuid) (id : Uuid) : List Uuid :=
  Sweep.openChildren (grantTree.children rows) (opens.erase id) id

theorem openChildren_grants (distinct : (rows.map grantTree.id).Nodup) :
    (rows.filter fun row => row.parentGrantId == some id && row.revokedAt.isNone).map (·.id) =
      Sweep.openChildren (grantTree.children rows) (grantTree.opens rows) id := by
  rw [Descent.openChildren_eq distinct]
  congr 1
  refine List.filter_congr fun row _ => ?_
  show (row.parentGrantId == some id && row.revokedAt.isNone) =
    (decide (row.parentGrantId = some id) && !row.revokedAt.isSome)
  rw [Bool.beq_eq_decide_eq, Option.not_isSome]

/-- The children that are delivered to a call. -/
def deliveredChildren (rows : List GrantRow) (id : Uuid) (s : Serving) : List Uuid :=
  s.tape.delivered (s.tick + 3) (listedChildren rows s.openGrants id)

/-- The step after the rows have been delivered to a call. -/
def deliveredTick (rows : List GrantRow) (id : Uuid) (s : Serving) : Nat :=
  s.tick + 3 + s.tape.deliverySteps (s.tick + 3) (listedChildren rows s.openGrants id).length

/-- The grant has been closed and its children listed; some of them have been delivered. -/
structure Listing (rows : List GrantRow) (id : Uuid) (s : Serving) (delivered : List Uuid)
    (before : Serving) : Prop where
  update : s.tape.fault (s.tick + 1) = none
  query : s.tape.fault (s.tick + 2) = none
  tape : before.tape = s.tape
  revoked : GrantsRevoked s.app.db.grants before.app.db.grants
  opens : before.openGrants = s.openGrants.erase id
  delivered_eq : delivered = deliveredChildren rows id s
  tick_eq : before.tick = deliveredTick rows id s

namespace Listing

variable {delivered : List Uuid} {before : Serving}

theorem listed (h : Listing rows id s delivered before) :
    delivered.Sublist (listedChildren rows s.openGrants id) :=
  h.delivered_eq ▸ Tape.delivered_sublist _ _ _

theorem all_iff (h : Listing rows id s delivered before) :
    delivered = listedChildren rows s.openGrants id ↔
      s.tape.Clear s.tick (listingSteps (listedChildren rows s.openGrants id)) := by
  have hsteps : s.tape.Clear s.tick (listingSteps (listedChildren rows s.openGrants id)) ↔
      s.tape.Clear (s.tick + 3) (rowSteps (listedChildren rows s.openGrants id)) :=
    (and_iff_right h.update).trans (and_iff_right h.query)
  rw [hsteps, ← Tape.delivered_eq_iff, h.delivered_eq, deliveredChildren]

theorem ticks (h : Listing rows id s delivered before)
    (all : delivered = listedChildren rows s.openGrants id) :
    before.tick = s.tick + (listingSteps (listedChildren rows s.openGrants id)).length := by
  have hclear : s.tape.Clear (s.tick + 3) (rowSteps (listedChildren rows s.openGrants id)) :=
    Tape.delivered_eq_iff.mp (h.delivered_eq.symm.trans all)
  rw [h.tick_eq, deliveredTick, hclear.deliverySteps_eq, listingSteps]
  simp only [List.length_cons]
  omega

end Listing

/-- A call whose update and query work goes on with the children that are delivered. -/
theorem revokeGrantSync_listing (distinct : (rows.map grantTree.id).Nodup)
    (since : GrantsRevoked rows s.app.db.grants) (hupdate : s.tape.fault (s.tick + 1) = none)
    (hquery : s.tape.fault (s.tick + 2) = none) : ∃ delivered before,
    Database.revokeGrantSync p (fuel + 1) id s =
      (delivered.mapM (Database.revokeGrantSync p fuel) >>= fun revoked =>
        pure (id :: revoked.flatten) : Handler (List Uuid)) before ∧
    Listing rows id s delivered before := by
  obtain ⟨db, hmark⟩ : ∃ db, Db.revokeGrantRow id (p.toRfc3339 (s.tape.now s.tick)) s.app.db =
      .ok ((), db) := ⟨_, rfl⟩
  obtain ⟨hrevoked, hopens⟩ := revokeGrantRow_run hmark
  have hsince := (since.trans hrevoked).advances
  have hlisted : (db.grants.filter fun row =>
      row.parentGrantId == some id && row.revokedAt.isNone).map (·.id) =
        listedChildren rows s.openGrants id := by
    rw [openChildren_grants (hsince.map_id ▸ distinct), hsince.children_eq, hopens]
    rfl
  obtain ⟨_, before, hdeliver, rfl, hstill, htick⟩ :=
    deliverRows_run (listedChildren rows s.openGrants id) (s.next.next.withDb db).next
  have happ : before.app = (s.next.next.withDb db).app := congrArg Prod.fst hstill
  refine ⟨_, before, ?_, hupdate, hquery, congrArg (fun still => still.2.2) hstill, ?_, ?_, rfl,
    htick⟩
  · rw [Database.revokeGrantSync, Action.bind_run_ok utcNow_run]
    refine (Action.bind_run_ok (sql_run (s := s.next) hupdate hmark)).trans ?_
    refine (Action.bind_run_ok (query_run (s := s.next.next.withDb db) hquery)).trans ?_
    dsimp only [Serving.withDb_app]
    rw [hlisted]
    exact Action.bind_run_ok hdeliver
  · rw [happ]
    exact hrevoked
  · rw [Serving.openGrants, happ]
    exact hopens

/-- What a call of `revoke_grant_sync` can do. -/
inductive CascadeCall (p : Platform) (rows : List GrantRow) (fuel : Nat) (id : Uuid) (s : Serving) :
    Except Failure (List Uuid) → Serving → Prop where
  | refused {e : Failure} {finish : Serving} (update : s.tape.fault (s.tick + 1) ≠ none)
      (still : finish.still = s.still) : CascadeCall p rows fuel id s (.error e) finish
  | unlisted {e : Failure} {finish : Serving} (update : s.tape.fault (s.tick + 1) = none)
      (query : s.tape.fault (s.tick + 2) ≠ none) (tape : finish.tape = s.tape)
      (revoked : GrantsRevoked s.app.db.grants finish.app.db.grants)
      (opens : finish.openGrants = s.openGrants.erase id) :
      CascadeCall p rows fuel id s (.error e) finish
  | listed {delivered : List Uuid} {before finish : Serving}
      {outcome : Except Failure (List (List Uuid))} (listing : Listing rows id s delivered before)
      (calls : delivered.mapM (Database.revokeGrantSync p fuel) before = (outcome, finish)) :
      CascadeCall p rows fuel id s (outcome.map fun lists => id :: lists.flatten) finish

theorem revokeGrantSync_cascadeCall (distinct : (rows.map grantTree.id).Nodup)
    (since : GrantsRevoked rows s.app.db.grants) {outcome : Except Failure (List Uuid)}
    (run : Database.revokeGrantSync p (fuel + 1) id s = (outcome, finish)) :
    CascadeCall p rows fuel id s outcome finish := by
  cases hupdate : s.tape.fault (s.tick + 1) with
  | some message =>
      rw [Database.revokeGrantSync, Action.bind_run_ok utcNow_run,
        Action.bind_run_error (sql_fault hupdate)] at run
      cases run
      exact .refused (hupdate ▸ nofun) rfl
  | none =>
      cases hquery : s.tape.fault (s.tick + 2) with
      | some message =>
          obtain ⟨db, hmark⟩ : ∃ db, Db.revokeGrantRow id (p.toRfc3339 (s.tape.now s.tick))
              s.app.db = .ok ((), db) := ⟨_, rfl⟩
          obtain ⟨hrevoked, hopens⟩ := revokeGrantRow_run hmark
          rw [Database.revokeGrantSync, Action.bind_run_ok utcNow_run] at run
          have hnext := (Action.bind_run_ok (sql_run (s := s.next) hupdate hmark)).symm.trans run
          rw [Action.bind_run_error (query_fault (s := s.next.next.withDb db) hquery)] at hnext
          cases hnext
          exact .unlisted hupdate (hquery ▸ nofun) rfl hrevoked hopens
      | none =>
          obtain ⟨delivered, before, hrun, hlisting⟩ :
              ∃ delivered before, Database.revokeGrantSync p (fuel + 1) id s =
                (delivered.mapM (Database.revokeGrantSync p fuel) >>= fun revoked =>
                  pure (id :: revoked.flatten) : Handler (List Uuid)) before ∧
                Listing rows id s delivered before :=
            revokeGrantSync_listing distinct since hupdate hquery
          rw [hrun] at run
          cases hcalls : delivered.mapM (Database.revokeGrantSync p fuel) before with
          | mk lists last =>
              cases lists with
              | error e =>
                  rw [Action.bind_run_error hcalls] at run
                  cases run
                  exact .listed hlisting hcalls
              | ok lists =>
                  rw [Action.bind_run_ok hcalls] at run
                  cases run
                  exact .listed hlisting hcalls

/-- The calls for the delivered children complete the call. -/
theorem Listing.cascadeRun {delivered : List Uuid} {before : Serving}
    {outcome : Except Failure (List (List Uuid))} (h : Listing rows id s delivered before)
    (distinct : (rows.map grantTree.id).Nodup)
    (runs : CascadeRuns rows fuel delivered before outcome finish) :
    CascadeRun rows (fuel + 1) id s (outcome.map fun lists => id :: lists.flatten) finish := by
  have hsteps : cascadeSteps rows (fuel + 1) s.openGrants id =
      listingSteps (listedChildren rows s.openGrants id) ++
        (listedChildren rows s.openGrants id).flatMap
          (cascadeSteps rows fuel (s.openGrants.erase id)) := rfl
  have hsweeps := runs.sweeps
  have hticks := runs.ticks
  rw [h.opens, h.tape] at hsweeps hticks
  have hclear : s.tape.Clear s.tick (cascadeSteps rows (fuel + 1) s.openGrants id) ↔
      delivered = listedChildren rows s.openGrants id ∧ s.tape.Clear before.tick
        (delivered.flatMap (cascadeSteps rows fuel (s.openGrants.erase id))) := by
    rw [hsteps, Tape.clear_append, ← h.all_iff]
    refine and_congr_right fun hall => ?_
    rw [h.ticks hall]
    rw [hall]
  refine ⟨runs.tape.trans h.tape, h.revoked.trans runs.revoked, ?_, fun hall => ?_, fun _ hid => ?_,
    fun hfault => absurd h.update hfault⟩
  · rw [hclear]
    have hsweep := hsweeps.sweeps (Descent.lineage distinct) h.listed
    cases outcome with
    | error e => exact hsweep
    | ok lists => exact hsweep
  · obtain ⟨hlisted, hrest⟩ := hclear.mp hall
    rw [hticks hrest, h.ticks hlisted, hsteps, List.length_append, Nat.add_assoc]
    rw [hlisted]
  · exact Finset.notMem_erase id _ (hsweeps.subset hid)

theorem Listing.runs {delivered : List Uuid} {before : Serving}
    {outcome : Except Failure (List (List Uuid))} (h : Listing rows id s delivered before)
    (distinct : (rows.map grantTree.id).Nodup) (since : GrantsRevoked rows s.app.db.grants)
    (enough : Sweep.Enough (fuel + 1) s.openGrants id)
    (calls : ∀ {c s outcome finish}, GrantsRevoked rows s.app.db.grants →
      Sweep.Enough fuel s.openGrants c → Database.revokeGrantSync p fuel c s = (outcome, finish) →
        CascadeRun rows fuel c s outcome finish)
    (run : delivered.mapM (Database.revokeGrantSync p fuel) before = (outcome, finish)) :
    CascadeRuns rows fuel delivered before outcome finish := by
  have siblings := Sweep.siblings_openChildren (Descent.lineage distinct) h.listed
  rw [← h.opens] at siblings
  exact cascadeRuns_mapM calls (since.trans h.revoked) siblings
    (h.opens ▸ enough.card_erase_le) run

/-- Every call is a sweep, whatever fails. -/
theorem revokeGrantSync_cascadeRun (distinct : (rows.map grantTree.id).Nodup)
    (since : GrantsRevoked rows s.app.db.grants) (enough : Sweep.Enough fuel s.openGrants id)
    {outcome : Except Failure (List Uuid)}
    (run : Database.revokeGrantSync p fuel id s = (outcome, finish)) :
    CascadeRun rows fuel id s outcome finish := by
  induction fuel generalizing id s outcome finish with
  | zero => exact absurd enough Sweep.not_enough_zero
  | succ fuel ih =>
      cases revokeGrantSync_cascadeCall distinct since run with
      | refused hupdate hstill =>
          have hunclear : ¬ s.tape.Clear s.tick (cascadeSteps rows (fuel + 1) s.openGrants id) :=
            fun h => hupdate h.1
          have happ : finish.app = s.app := congrArg Prod.fst hstill
          have hopens : finish.openGrants = s.openGrants := by rw [Serving.openGrants, happ]; rfl
          refine ⟨congrArg (fun still => still.2.2) hstill, happ ▸ .refl _, ?_,
            fun h => absurd h hunclear, fun h => absurd h hupdate, fun _ => ⟨⟨_, rfl⟩, hopens⟩⟩
          rw [eq_false hunclear, hopens]
          exact .refused
      | unlisted hupdate hquery htape hrevoked hopens =>
          have hunclear : ¬ s.tape.Clear s.tick (cascadeSteps rows (fuel + 1) s.openGrants id) :=
            fun h => hquery h.2.1
          refine ⟨htape, hrevoked, ?_, fun h => absurd h hunclear, fun _ => ?_,
            fun h => absurd hupdate h⟩
          · rw [eq_false hunclear, hopens]
            exact .unlisted
          · rw [hopens]
            exact Finset.notMem_erase id _
      | listed hlisting hcalls =>
          exact hlisting.cascadeRun distinct (hlisting.runs distinct since enough
            (fun hsince henough hcall => ih hsince henough hcall) hcalls)

/-- A revocation is a sweep that is nested deep enough. -/
theorem revokeGrant_cascadeRun (distinct : (s.app.db.grants.map grantTree.id).Nodup)
    {outcome : Except Failure (List Uuid)}
    (run : Database.revokeGrant p id s = (outcome, finish)) :
    CascadeRun s.app.db.grants (s.app.db.grants.length + 1) id s outcome finish :=
  revokeGrantSync_cascadeRun distinct (.refl _)
    (.inl (Nat.lt_succ_of_le (Descent.card_opens_le _))) run

end

end Patroclus
