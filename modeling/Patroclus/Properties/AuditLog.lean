import Patroclus.Db.Completion

/-!
# Honest audit logs

Every call of `create_audit_entry` appends one row, which continues the chain and
carries its own seal. The seal is computed from values in memory and checked on
values that were read back from text columns, so each column has to survive its
way through the table. Between the calls other handlers may change everything
but the audit log.
-/

namespace Patroclus

open Foundation

/-- A call of `create_audit_entry` without failures of the database, on values that
survive printing and parsing. A delegation chain is an array of hops. -/
structure HonestCall (p : Platform) (entry : CreateAuditEntry) (s : Serving) : Prop where
  faults : ∀ n, s.tape.fault n = none
  dates : ∀ n, p.parseFromRfc3339 (p.toRfc3339 (s.tape.now n)) = some (s.tape.now n)
  chain : ∀ json, entry.delegationChain = some json → (∃ hops, json = chainToJson hops) ∧
    p.jsonFromStr (p.jsonToString json) = some json

/-- The databases that a sequence of honest calls leads to. The calls are critical
sections, and other handlers run between them. -/
inductive AuditRun (p : Platform) : List CreateAuditEntry → Db → Prop where
  | empty {db : Db} (log : db.auditLog = []) : AuditRun p [] db
  | other {calls : List CreateAuditEntry} {db db' : Db} (run : AuditRun p calls db)
      (log : db'.auditLog = db.auditLog) (sequence : db'.auditSequence = db.auditSequence) :
      AuditRun p calls db'
  | call {calls : List CreateAuditEntry} {entry : CreateAuditEntry} {s : Serving}
      (run : AuditRun p calls s.app.db) (honest : HonestCall p entry s) :
      AuditRun p (calls ++ [entry]) (Database.createAuditEntry p entry s).2.app.db

section

variable {p : Platform}

/-- The entry that `audit_entry_from_row` reads, with the clock reading for a date that
does not parse. -/
def auditEntryOfRow (p : Platform) (row : AuditRow) (now : Instant) : AuditEntry where
  id := row.id
  prevHash := row.prevHash
  rowHash := row.rowHash
  agentId := (p.parseUuid row.agentId).getD Uuid.nil
  principalId := row.principalId.bind p.parseUuid
  action := row.action
  resource := row.resource
  decision := row.decision
  reason := row.reason
  delegationChain := row.delegationChain.bind p.jsonFromStr
  tokenJti := row.tokenJti
  dryRun := decide (row.dryRun ≠ 0)
  timestamp := (p.parseFromRfc3339 row.timestamp).getD now

/-- The log as the verifier will read it. -/
def auditEntries (p : Platform) (db : Db) : List AuditEntry :=
  db.auditLog.map fun row => auditEntryOfRow p row 0

/-- A log that the verifier accepts, in the order of its ids. -/
structure LogSealed (p : Platform) (db : Db) : Prop where
  dated : ∀ row ∈ db.auditLog, (p.parseFromRfc3339 row.timestamp).isSome
  linked : (auditSealing p).Linked genesisPrevHash (auditEntries p db)
  ordered : (db.auditLog.map (·.id)).Pairwise (· < ·)
  bounded : ∀ row ∈ db.auditLog, row.id ≤ db.auditSequence

/-- A log that can be read back, in the order of its ids. -/
structure LogStored (p : Platform) (db : Db) : Prop where
  dated : ∀ row ∈ db.auditLog, (p.parseFromRfc3339 row.timestamp).isSome
  ordered : (db.auditLog.map (·.id)).Pairwise (· < ·)
  bounded : ∀ row ∈ db.auditLog, row.id ≤ db.auditSequence

theorem logSealed_iff {db : Db} : LogSealed p db ↔
    LogStored p db ∧ (auditSealing p).Linked genesisPrevHash (auditEntries p db) :=
  ⟨fun h => ⟨⟨h.dated, h.ordered, h.bounded⟩, h.linked⟩,
    fun ⟨h, linked⟩ => ⟨h.dated, linked, h.ordered, h.bounded⟩⟩

theorem logStored_of_empty {db : Db} (empty : db.auditLog = []) : LogStored p db where
  dated := by
    rw [empty]
    nofun
  ordered := by
    rw [empty]
    exact .nil
  bounded := by
    rw [empty]
    nofun

theorem tip_auditEntries (db : Db) :
    (auditSealing p).tip genesisPrevHash (auditEntries p db) = lastHash db := by
  rw [Sealing.tip, auditEntries, List.getLast?_map, Option.map_map]
  rfl

/-! ## One call -/

/-- A stored entry reads back as itself, with the id that the table has given it. -/
theorem auditEntryOfRow_auditRow {entry : AuditEntry} {id : Int} {now : Instant}
    (date : p.parseFromRfc3339 (p.toRfc3339 entry.timestamp) = some entry.timestamp)
    (chain : ∀ json, entry.delegationChain = some json →
      p.jsonFromStr (p.jsonToString json) = some json) :
    auditEntryOfRow p { Database.auditRow p entry with id := id } now =
      { entry with id := id } := by
  obtain ⟨_, prevHash, rowHash, agentId, principalId, action, resource, decision, reason,
    delegationChain, tokenJti, dryRun, timestamp⟩ := entry
  have hprincipal : (principalId.map Uuid.toString).bind p.parseUuid = principalId := by
    cases principalId with
    | none => rfl
    | some principalId => exact p.parseUuid_toString principalId
  have hchain : (delegationChain.map p.jsonToString).bind p.jsonFromStr = delegationChain := by
    cases hjson : delegationChain with
    | none => rfl
    | some json => exact chain json hjson
  simp only [auditEntryOfRow, Database.auditRow, p.parseUuid_toString, Option.getD_some,
    hprincipal, hchain, date]
  cases dryRun <;> rfl

/-- A sealed entry carries its own hash, whatever its id. -/
theorem intact_sealedEntry {prevHash : String} {now : Instant} {entry : CreateAuditEntry}
    {id : Int} :
    (auditSealing p).Intact { Database.sealedEntry p prevHash now entry with id := id } := rfl

section

variable {entry : CreateAuditEntry} {prevHash : String} {now : Instant} {db : Db}

/-- An appended entry keeps the log readable and in order. -/
theorem LogStored.append (h : LogStored p db)
    (date : p.parseFromRfc3339 (p.toRfc3339 now) = some now) :
    LogStored p (appendAudit p prevHash now entry db) := by
  constructor
  · intro row hrow
    obtain hold | hnew := List.mem_append.mp hrow
    · exact h.dated row hold
    · rw [List.mem_singleton.mp hnew]
      exact Option.isSome_iff_exists.mpr ⟨_, date⟩
  · rw [appendAudit, List.map_append, List.map_singleton]
    refine List.pairwise_append.mpr ⟨h.ordered, List.pairwise_singleton _ _, ?_⟩
    intro id hid new hnew
    obtain ⟨row, hrow, rfl⟩ := List.mem_map.mp hid
    rw [List.mem_singleton.mp hnew]
    exact Int.lt_add_one_of_le (h.bounded row hrow)
  · intro row hrow
    show row.id ≤ ((db.auditSequence + 1 : Nat) : Int)
    obtain hold | hnew := List.mem_append.mp hrow
    · have hle := h.bounded row hold
      push_cast
      omega
    · rw [List.mem_singleton.mp hnew]
      push_cast
      omega

/-- An appended entry keeps the log linked exactly if it continues the last one. -/
theorem linked_append_iff (date : p.parseFromRfc3339 (p.toRfc3339 now) = some now)
    (chain : ∀ json, entry.delegationChain = some json →
      p.jsonFromStr (p.jsonToString json) = some json) :
    (auditSealing p).Linked genesisPrevHash
        (auditEntries p (appendAudit p prevHash now entry db)) ↔
      (auditSealing p).Linked genesisPrevHash (auditEntries p db) ∧ prevHash = lastHash db := by
  have hread : auditEntryOfRow p { Database.auditRow p (Database.sealedEntry p prevHash now entry)
      with id := db.auditSequence + 1 } 0 = { Database.sealedEntry p prevHash now entry with
        id := db.auditSequence + 1 } :=
    auditEntryOfRow_auditRow date chain
  have hentries : auditEntries p (appendAudit p prevHash now entry db) =
      auditEntries p db ++ [{ Database.sealedEntry p prevHash now entry with
        id := db.auditSequence + 1 }] := by
    rw [auditEntries, appendAudit, List.map_append, List.map_singleton, hread]
    rfl
  rw [hentries, (auditSealing p).linked_append_iff, tip_auditEntries]
  exact and_congr_right fun _ => and_iff_left ⟨intact_sealedEntry, trivial⟩

end

theorem LogSealed.call {entry : CreateAuditEntry} {s : Serving} (h : LogSealed p s.app.db)
    (honest : HonestCall p entry s) :
    LogSealed p (Database.createAuditEntry p entry s).2.app.db := by
  rw [Database.createAuditEntry_db honest.faults, logSealed_iff]
  obtain ⟨hstored, hlinked⟩ := logSealed_iff.mp h
  exact ⟨hstored.append (honest.dates _),
    (linked_append_iff (honest.dates _) fun json hjson => (honest.chain json hjson).2).mpr
      ⟨hlinked, rfl⟩⟩

/-! ## Whole logs -/

theorem AuditRun.sealed {calls : List CreateAuditEntry} {db : Db} (run : AuditRun p calls db) :
    LogSealed p db ∧ db.auditLog.length = calls.length := by
  induction run with
  | empty log =>
      refine ⟨logSealed_iff.mpr ⟨logStored_of_empty log, ?_⟩, by rw [log]; rfl⟩
      rw [auditEntries, log]
      trivial
  | other _ log sequence ih =>
      obtain ⟨⟨hdated, hlinked, hordered, hbounded⟩, hlength⟩ := ih
      refine ⟨⟨?_, ?_, ?_, ?_⟩, by rw [log, hlength]⟩
      · rwa [log]
      · rwa [auditEntries, log]
      · rwa [log]
      · rwa [log, sequence]
  | call _ honest ih =>
      refine ⟨ih.1.call honest, ?_⟩
      rw [Database.createAuditEntry_db honest.faults, appendAudit, List.length_append,
        List.length_append, ih.2]
      rfl

/-- Both readers deliver the entries of the log. -/
theorem LogStored.read {s : Serving} (h : LogStored p s.app.db)
    (faults : ∀ n, s.tape.fault n = none) :
    (Database.allAuditEntries p s).1 = .ok (auditEntries p s.app.db) ∧
      (Database.readAuditEntriesForVerification p s).1 = .ok (auditEntries p s.app.db) := by
  have hrow : ∀ row ∈ s.app.db.auditLog, ∀ s', ∃ finish, Database.auditEntryFromRow p row s' =
      (.ok (auditEntryOfRow p row 0), finish) := by
    intro row hmem s'
    obtain ⟨date, hdate⟩ := Option.isSome_iff_exists.mp (h.dated row hmem)
    have hrun : Database.auditEntryFromRow p row s' =
      (.ok (auditEntryOfRow p row (s'.tape.now s'.tick)), s'.next) := rfl
    refine ⟨s'.next, ?_⟩
    rw [hrun]
    simp only [auditEntryOfRow, hdate, Option.getD_some]
  have hquery : query (fun db => db.auditLog) s = (.ok s.app.db.auditLog, s.next) :=
    query_run (faults s.tick)
  obtain ⟨finish, hmap⟩ := Action.mapM_run hrow s.next
  constructor
  · rw [Database.allAuditEntries, Action.bind_run_ok hquery, hmap]
    rfl
  · rw [Database.readAuditEntriesForVerification, Action.bind_run_ok hquery, hmap]
    rfl

/-- After any sequence of honest calls, both readers deliver the log in the order of its
ids, and the verifier checks one entry for each call and finds no broken link. -/
theorem verifyChain_of_auditRun {calls : List CreateAuditEntry} {s : Serving}
    (run : AuditRun p calls s.app.db) (faults : ∀ n, s.tape.fault n = none) :
    ∃ entries, (Database.allAuditEntries p s).1 = .ok entries ∧
      (Database.readAuditEntriesForVerification p s).1 = .ok entries ∧
      (entries.map (·.id)).Pairwise (· < ·) ∧
      verifyChain p entries = ⟨calls.length, none⟩ := by
  obtain ⟨hsealed, hlength⟩ := run.sealed
  obtain ⟨hall, hread⟩ := (logSealed_iff.mp hsealed).1.read faults
  refine ⟨auditEntries p s.app.db, hall, hread, ?_, ?_⟩
  · have hids : (auditEntries p s.app.db).map (·.id) = s.app.db.auditLog.map (·.id) := by
      rw [auditEntries, List.map_map]
      rfl
    rw [hids]
    exact hsealed.ordered
  · rw [verifyChain_of_linked hsealed.linked, auditEntries, List.length_map, hlength]

end

def auditPlatform : Platform := .concrete (.ofTable [] List.nodup_nil) (parseKnown denyByDefault [])

/-- A request on an empty delegation chain, by an agent without a principal. -/
def auditedCall : CreateAuditEntry where
  agentId := ⟨300⟩
  principalId := none
  action := "read"
  resource := "db"
  decision := .deny
  reason := "No matching policy"
  delegationChain := some (chainToJson [])
  tokenJti := none
  dryRun := false

/-- A request that is allowed, by an agent of a principal that presents no token. -/
def allowedCall : CreateAuditEntry :=
  { auditedCall with
    principalId := some ⟨200⟩
    decision := .allow
    reason := "test"
    delegationChain := none
    tokenJti := some (⟨410⟩ : Uuid).toString }

def auditServing (db : Db) (now : Instant) : Serving :=
  ⟨⟨db, YamlEngine.new, ∅, .new⟩, [], .steady now 0, 0⟩

theorem auditServing_db (db : Db) (now : Instant) : (auditServing db now).app.db = db := rfl

def auditedOnce : Db :=
  (Database.createAuditEntry auditPlatform auditedCall (auditServing Db.empty 1000000000)).2.app.db

def auditedTwice : Db :=
  (Database.createAuditEntry auditPlatform allowedCall
    (auditServing auditedOnce 2000000000)).2.app.db

theorem verifyChain_auditedTwice : ∃ entries,
    (Database.allAuditEntries auditPlatform (auditServing auditedTwice 0)).1 = .ok entries ∧
      (Database.readAuditEntriesForVerification auditPlatform (auditServing auditedTwice 0)).1 =
        .ok entries ∧
      (entries.map (·.id)).Pairwise (· < ·) ∧ verifyChain auditPlatform entries = ⟨2, none⟩ := by
  have hchain : ∀ json, auditedCall.delegationChain = some json →
      (∃ hops, json = chainToJson hops) ∧
        auditPlatform.jsonFromStr (auditPlatform.jsonToString json) = some json := by
    rintro json hjson
    cases hjson
    exact ⟨⟨[], rfl⟩, rfl⟩
  have hdate₁ : auditPlatform.parseFromRfc3339 (auditPlatform.toRfc3339 1000000000) =
      some 1000000000 := by decide
  have hdate₂ : auditPlatform.parseFromRfc3339 (auditPlatform.toRfc3339 2000000000) =
      some 2000000000 := by decide
  have honest₁ : HonestCall auditPlatform auditedCall (auditServing Db.empty 1000000000) :=
    ⟨fun _ => rfl, fun _ => hdate₁, hchain⟩
  have honest₂ : HonestCall auditPlatform allowedCall (auditServing auditedOnce 2000000000) :=
    ⟨fun _ => rfl, fun _ => hdate₂, nofun⟩
  have once : AuditRun auditPlatform [auditedCall]
      (auditServing auditedOnce 2000000000).app.db := by
    rw [auditServing_db]
    exact AuditRun.call (.empty rfl) honest₁
  have twice : AuditRun auditPlatform [auditedCall, allowedCall]
      (auditServing auditedTwice 0).app.db := by
    rw [auditServing_db]
    exact AuditRun.call once honest₂
  exact verifyChain_of_auditRun twice fun _ => rfl

end Patroclus
