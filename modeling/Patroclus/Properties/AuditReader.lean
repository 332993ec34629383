import Patroclus.Properties.AuditLog

/-!
# What the audit reader hides

The reader turns the text columns of a row into values. A column that does not parse becomes
a default, and one that parses may have been written in another way than the writer's. A row
is encoded again as it is stored exactly if each of its columns is the text that the writer
prints for some value; of these rows, no two decode to the same entry.
-/

namespace Patroclus

open Foundation

/-- Each column of the row is what the writer prints for a value. The date may also be
unreadable and happen to be the print of the reading that replaces it. -/
structure AuditRow.Canonical (p : Platform) (row : AuditRow) (now : Instant) : Prop where
  agentId : ∃ id : Uuid, row.agentId = id.toString
  principalId : ∀ text, row.principalId = some text → ∃ id : Uuid, text = id.toString
  delegationChain : ∀ text, row.delegationChain = some text →
    ∃ json, p.jsonFromStr text = some json ∧ p.jsonToString json = text
  dryRun : row.dryRun = 0 ∨ row.dryRun = 1
  timestamp : (∃ t, p.parseFromRfc3339 row.timestamp = some t ∧ p.toRfc3339 t = row.timestamp) ∨
    p.parseFromRfc3339 row.timestamp = none ∧ p.toRfc3339 now = row.timestamp

/-- The reader fails, or its entries are encoded again as the rows that are stored. -/
def HidesNothing (p : Platform) (s : Serving) : Prop :=
  ∀ entries, (Database.readAuditEntriesForVerification p s).1 = .ok entries →
    entries.map (Database.auditRow p) = s.app.db.auditLog

section

variable {p : Platform} {row row' : AuditRow} {now now' : Instant}

/-! ## One column -/

theorem agentId_reencoded_iff {text : String} :
    ((p.parseUuid text).getD Uuid.nil).toString = text ↔ ∃ id : Uuid, text = id.toString := by
  constructor
  · intro h
    exact ⟨_, h.symm⟩
  · rintro ⟨id, rfl⟩
    rw [p.parseUuid_toString, Option.getD_some]

theorem principalId_reencoded_iff {text : Option String} :
    (text.bind p.parseUuid).map Uuid.toString = text ↔
      ∀ t, text = some t → ∃ id : Uuid, t = id.toString := by
  cases text with
  | none => exact iff_of_true rfl nofun
  | some text =>
      rw [Option.bind_some, Option.map_eq_some_iff]
      constructor
      · rintro ⟨id, -, hid⟩ _ ⟨⟩
        exact ⟨id, hid.symm⟩
      · intro h
        obtain ⟨id, rfl⟩ := h text rfl
        exact ⟨id, p.parseUuid_toString id, rfl⟩

theorem delegationChain_reencoded_iff {text : Option String} :
    (text.bind p.jsonFromStr).map p.jsonToString = text ↔ ∀ t, text = some t →
      ∃ json, p.jsonFromStr t = some json ∧ p.jsonToString json = t := by
  cases text with
  | none => exact iff_of_true rfl nofun
  | some text =>
      rw [Option.bind_some, Option.map_eq_some_iff]
      constructor
      · rintro h _ ⟨⟩
        exact h
      · intro h
        exact h text rfl

theorem dryRun_reencoded_iff {flag : Int} :
    (if decide (flag ≠ 0) = true then 1 else 0 : Int) = flag ↔ flag = 0 ∨ flag = 1 := by
  by_cases hflag : flag = 0
  · rw [hflag]
    decide
  · rw [decide_eq_true hflag, if_pos rfl, or_iff_right hflag, eq_comm]

theorem timestamp_reencoded_iff {text : String} :
    p.toRfc3339 ((p.parseFromRfc3339 text).getD now) = text ↔
      (∃ t, p.parseFromRfc3339 text = some t ∧ p.toRfc3339 t = text) ∨
        p.parseFromRfc3339 text = none ∧ p.toRfc3339 now = text := by
  cases p.parseFromRfc3339 text with
  | none => simp
  | some t => simp

/-! ## One row -/

/-- A row is encoded again as it is stored exactly if it is canonical. -/
theorem auditRow_auditEntryOfRow_iff :
    Database.auditRow p (auditEntryOfRow p row now) = row ↔ row.Canonical p now := by
  have hcolumns : Database.auditRow p (auditEntryOfRow p row now) = row ↔
      ((p.parseUuid row.agentId).getD Uuid.nil).toString = row.agentId ∧
      (row.principalId.bind p.parseUuid).map Uuid.toString = row.principalId ∧
      (row.delegationChain.bind p.jsonFromStr).map p.jsonToString = row.delegationChain ∧
      (if decide (row.dryRun ≠ 0) = true then 1 else 0 : Int) = row.dryRun ∧
      p.toRfc3339 ((p.parseFromRfc3339 row.timestamp).getD now) = row.timestamp := by
    cases row
    simp only [Database.auditRow, auditEntryOfRow, AuditRow.mk.injEq, true_and]
    exact Iff.rfl
  rw [hcolumns, agentId_reencoded_iff, principalId_reencoded_iff, delegationChain_reencoded_iff,
    dryRun_reencoded_iff, timestamp_reencoded_iff]
  constructor
  · rintro ⟨hagent, hprincipal, hchain, hflag, hdate⟩
    exact ⟨hagent, hprincipal, hchain, hflag, hdate⟩
  · rintro ⟨hagent, hprincipal, hchain, hflag, hdate⟩
    exact ⟨hagent, hprincipal, hchain, hflag, hdate⟩

/-- Canonical rows that decode to the same entry are the same. -/
theorem AuditRow.Canonical.eq_of_entry_eq (h : row.Canonical p now) (h' : row'.Canonical p now')
    (same : auditEntryOfRow p row now = auditEntryOfRow p row' now') : row = row' := by
  calc row = Database.auditRow p (auditEntryOfRow p row now) :=
        (auditRow_auditEntryOfRow_iff.mpr h).symm
    _ = Database.auditRow p (auditEntryOfRow p row' now') := by rw [same]
    _ = row' := auditRow_auditEntryOfRow_iff.mpr h'

/-! ## The log -/

/-- What is decoded by position and encoded again is the same exactly if every element is. -/
theorem map_mapIdx_eq_self_iff {α β : Type*} {decode : Nat → α → β} {encode : β → α}
    {xs : List α} : (xs.mapIdx decode).map encode = xs ↔
      ∀ k x, xs[k]? = some x → encode (decode k x) = x := by
  rw [List.ext_getElem?_iff]
  refine forall_congr' fun k => ?_
  rw [List.getElem?_map, List.getElem?_mapIdx]
  cases xs[k]? with
  | none => exact iff_of_true rfl nofun
  | some x =>
      rw [Option.map_some, Option.map_some, Option.some_inj]
      constructor
      · rintro h _ ⟨⟩
        exact h
      · intro h
        exact h x rfl

/-- The rows are read one after the other, each with a reading of the clock. -/
theorem mapM_auditEntryFromRow (rows : List AuditRow) (s : Serving) : ∃ finish,
    rows.mapM (Database.auditEntryFromRow p) s = (.ok (rows.mapIdx fun k row =>
      auditEntryOfRow p row (s.tape.now (s.tick + k))), finish) := by
  induction rows generalizing s with
  | nil => exact ⟨s, rfl⟩
  | cons row rest ih =>
      obtain ⟨finish, hrest⟩ := ih s.next
      refine ⟨finish, ?_⟩
      have hrow : Database.auditEntryFromRow p row s =
        (.ok (auditEntryOfRow p row (s.tape.now s.tick)), s.next) := rfl
      rw [List.mapM_cons, Action.bind_run_ok hrow, Action.bind_run_ok hrest, List.mapIdx_cons]
      simp only [Serving.next_tape, Serving.next_tick, Nat.add_zero, Nat.add_assoc, Nat.add_comm 1]
      rfl

end

/-- The reader hides nothing exactly if its query fails or every row is canonical at its
reading of the clock, and canonical rows are told apart. -/
theorem hidesNothing_iff (p : Platform) (s : Serving) :
    (HidesNothing p s ↔ s.tape.fault s.tick ≠ none ∨
      ∀ k (row : AuditRow), s.app.db.auditLog[k]? = some row →
        row.Canonical p (s.tape.now (s.tick + 1 + k))) ∧
    ∀ (row row' : AuditRow) now now', row.Canonical p now → row'.Canonical p now' →
      auditEntryOfRow p row now = auditEntryOfRow p row' now' → row = row' := by
  refine ⟨?_, fun row row' now now' h h' same => h.eq_of_entry_eq h' same⟩
  rw [HidesNothing, Database.readAuditEntriesForVerification]
  cases hfault : s.tape.fault s.tick with
  | some message =>
      rw [Action.bind_run_error (query_fault hfault)]
      refine iff_of_true ?_ (.inl (Option.some_ne_none message))
      intro entries hentries
      cases hentries
  | none =>
      obtain ⟨finish, hrows⟩ := mapM_auditEntryFromRow (p := p) s.app.db.auditLog s.next
      rw [Action.bind_run_ok (query_run hfault), hrows, or_iff_right (fun h => h rfl)]
      have hentries : (s.app.db.auditLog.mapIdx fun k row =>
          auditEntryOfRow p row (s.tape.now (s.tick + 1 + k))).map (Database.auditRow p) =
            s.app.db.auditLog ↔ ∀ k (row : AuditRow), s.app.db.auditLog[k]? = some row →
              row.Canonical p (s.tape.now (s.tick + 1 + k)) := by
        rw [map_mapIdx_eq_self_iff]
        exact forall₃_congr fun k row _ => auditRow_auditEntryOfRow_iff
      rw [← hentries]
      constructor
      · intro h
        exact h _ rfl
      · rintro h _ ⟨⟩
        exact h

/-- Reading without loss, as a promise about every table. -/
def ReaderHidesNothing : Prop := ∀ (p : Platform) (s : Serving), HidesNothing p s

/-- A row whose agent is no id. -/
def strangeRow : AuditRow :=
  { Database.auditRow auditPlatform (Database.sealedEntry auditPlatform genesisPrevHash 0
      auditedCall) with agentId := "intruder" }

/-- The agent is read as the nil id. -/
theorem not_readerHidesNothing : ¬ ReaderHidesNothing := by
  intro h
  have hsame := h auditPlatform (auditServing { Db.empty with auditLog := [strangeRow] } 0) _ rfl
  have hagent := congrArg (List.map (·.agentId)) hsame
  exact absurd hagent (by decide +kernel)

end Patroclus
