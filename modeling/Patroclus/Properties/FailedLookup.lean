import Patroclus.Foundation.Run
import Patroclus.Properties.AuditLog

/-!
# An append whose lookup fails

`create_audit_entry` looks up the hash of the last row and inserts the next one. A lookup
that fails reads as an empty log, so the next row starts a new chain below the old one. The
log stays a chain exactly if no lookup fails before an insertion that works, unless the chain
ends in the hash of the genesis.
-/

namespace Patroclus

open Foundation

/-- The state after one call of `create_audit_entry`. -/
def auditStep (p : Platform) (s : Serving) (entry : CreateAuditEntry) : Serving :=
  (Database.createAuditEntry p entry s).2

/-- Read without failures, the log is in the order of its ids, and the verifier accepts it. -/
def ChainAccepted (p : Platform) (db : Db) : Prop :=
  ∀ s : Serving, s.app.db = db → (∀ n, s.tape.fault n = none) → ∃ entries,
    (Database.readAuditEntriesForVerification p s).1 = .ok entries ∧
      (entries.map (·.id)).Pairwise (· < ·) ∧ (verifyChain p entries).isValid = true

/-- The lookup of the predecessor works, or the insertion fails as well, or the predecessor
looks like none. -/
def LookupSpared (s : Serving) : Prop :=
  s.tape.fault s.tick = none ∨ s.tape.fault (s.tick + 2) ≠ none ∨
    lastHash s.app.db = genesisPrevHash

instance {s : Serving} : Decidable (LookupSpared s) := inferInstanceAs (Decidable (_ ∨ _ ∨ _))

/-- The clock is read in dates that the platform reads back. -/
def Tape.Dated (p : Platform) (tape : Tape) : Prop :=
  ∀ n, p.parseFromRfc3339 (p.toRfc3339 (tape.now n)) = some (tape.now n)

/-- The delegation chain is read back as it is printed. -/
def CreateAuditEntry.Reads (p : Platform) (entry : CreateAuditEntry) : Prop :=
  ∀ json, entry.delegationChain = some json → p.jsonFromStr (p.jsonToString json) = some json

section

variable {p : Platform} {s : Serving} {entry : CreateAuditEntry}

theorem auditStep_tape : (auditStep p s entry).tape = s.tape := by
  rw [auditStep, Database.createAuditEntry_step]
  rfl

theorem LogStored.auditStep (h : LogStored p s.app.db) (dated : s.tape.Dated p) :
    LogStored p (auditStep p s entry).app.db := by
  rw [Patroclus.auditStep, Database.createAuditEntry_step]
  show LogStored p (ite _ _ _)
  split
  · exact h.append (dated _)
  · exact h

/-- What a call does to the chain. -/
theorem linked_auditStep_iff (dated : s.tape.Dated p) (reads : entry.Reads p) :
    (auditSealing p).Linked genesisPrevHash (auditEntries p (auditStep p s entry).app.db) ↔
      (auditSealing p).Linked genesisPrevHash (auditEntries p s.app.db) ∧ LookupSpared s := by
  rw [auditStep, Database.createAuditEntry_step, LookupSpared]
  show (auditSealing p).Linked genesisPrevHash (auditEntries p (ite _ _ _)) ↔ _
  by_cases hinsert : s.tape.fault (s.tick + 2) = none
  · rw [if_pos hinsert, linked_append_iff (dated _) reads]
    refine and_congr_right fun _ => ?_
    rw [or_iff_right (not_not_intro hinsert)]
    split
    · rename_i hlookup
      exact iff_of_true rfl (.inl hlookup)
    · rename_i hlookup
      rw [or_iff_right hlookup]
      exact eq_comm
  · rw [if_neg hinsert]
    exact (and_iff_left (.inr (.inl hinsert))).symm

/-- A stored log is accepted exactly if it is a chain. -/
theorem LogStored.accepted_iff {db : Db} (h : LogStored p db) :
    ChainAccepted p db ↔ (auditSealing p).Linked genesisPrevHash (auditEntries p db) := by
  constructor
  · intro haccepted
    let reader : Serving := ⟨⟨db, YamlEngine.new, ∅, .new⟩, [], .steady 0 0, 0⟩
    obtain ⟨entries, hread, -, hvalid⟩ := haccepted reader rfl fun _ => rfl
    have hentries := (LogStored.read (s := reader) h fun _ => rfl).2
    cases hentries.symm.trans hread
    exact verifyChain_isValid_iff.mp hvalid
  · rintro hlinked s rfl faults
    refine ⟨_, (h.read faults).2, ?_, verifyChain_isValid_iff.mpr hlinked⟩
    have hids : (auditEntries p s.app.db).map (·.id) = s.app.db.auditLog.map (·.id) := by
      rw [auditEntries, List.map_map]
      rfl
    rw [hids]
    exact h.ordered

end

/-- Starting with an empty log, the log in the end is accepted exactly if every call is
spared. -/
theorem chainAccepted_iff {p : Platform} {s : Serving} {calls : List CreateAuditEntry}
    (empty : s.app.db.auditLog = []) (dated : s.tape.Dated p)
    (reads : ∀ entry ∈ calls, entry.Reads p) :
    ChainAccepted p (calls.foldl (auditStep p) s).app.db ↔
      Along (auditStep p) (fun s _ => LookupSpared s) s calls := by
  have hstored (done : List CreateAuditEntry) : LogStored p (done.foldl (auditStep p) s).app.db ∧
      (done.foldl (auditStep p) s).tape.Dated p := by
    refine List.foldlRecOn done (auditStep p)
      (motive := fun s => LogStored p s.app.db ∧ s.tape.Dated p) ⟨logStored_of_empty empty, dated⟩
      fun middle hmiddle entry _ => ⟨hmiddle.1.auditStep hmiddle.2, ?_⟩
    rw [auditStep_tape]
    exact hmiddle.2
  have henv : Along (auditStep p) (fun s entry => s.tape.Dated p ∧ entry.Reads p) s calls := by
    refine Along.iff_forall.mpr fun done entry hprefix => ⟨(hstored done).2, reads entry ?_⟩
    exact hprefix.subset (List.mem_append_right done (List.mem_singleton_self entry))
  have hstart : (auditSealing p).Linked genesisPrevHash (auditEntries p s.app.db) := by
    rw [auditEntries, empty]
    trivial
  rw [(hstored calls).1.accepted_iff]
  refine (Along.iff_final_of_env (I := fun s => (auditSealing p).Linked genesisPrevHash
    (auditEntries p s.app.db)) ?_ ?_ henv hstart).symm
  · rintro middle entry ⟨hdated, hreads⟩ hlinked
    rw [linked_auditStep_iff hdated hreads]
    exact and_iff_right hlinked
  · rintro middle entry ⟨hdated, hreads⟩ hbroken hlinked
    exact hbroken ((linked_auditStep_iff hdated hreads).mp hlinked).1

/-- A server with an empty log, where one step of the tape fails. -/
def lookupServing (failing : Nat) : Serving :=
  { auditServing Db.empty 1000000000 with
    tape := { Tape.steady 1000000000 0 with
      fault := fun n => if n = failing then some "disk I/O error" else none } }

theorem dated_lookupServing (failing : Nat) : (lookupServing failing).tape.Dated auditPlatform :=
  fun _ => (by decide : auditPlatform.parseFromRfc3339 (auditPlatform.toRfc3339 1000000000) =
    some 1000000000)

theorem reads_auditedCall : ∀ entry ∈ [auditedCall, auditedCall], entry.Reads auditPlatform := by
  intro entry hentry json hjson
  obtain rfl : entry = auditedCall := by
    obtain rfl | hentry := List.mem_cons.mp hentry
    · rfl
    · exact List.mem_singleton.mp hentry
  cases hjson
  rfl

/-- The lookup in the empty log fails, and nothing is lost. -/
theorem chainAccepted_iff_genesis : ChainAccepted auditPlatform
    ([auditedCall, auditedCall].foldl (auditStep auditPlatform) (lookupServing 0)).app.db :=
  (chainAccepted_iff rfl (dated_lookupServing 0) reads_auditedCall).mpr
    ⟨.inr (.inr rfl), .inl rfl, trivial⟩

/-- An unforked chain, as a promise about every sequence of calls and failures. -/
def ChainNeverForks : Prop :=
  ∀ (p : Platform) (s : Serving) (calls : List CreateAuditEntry), s.app.db.auditLog = [] →
    s.tape.Dated p → (∀ entry ∈ calls, entry.Reads p) →
      ChainAccepted p (calls.foldl (auditStep p) s).app.db

/-- The lookup of the second call fails, and its row starts a new chain. -/
theorem not_chainNeverForks : ¬ ChainNeverForks := by
  intro h
  have haccepted := h auditPlatform (lookupServing 3) [auditedCall, auditedCall] rfl
    (dated_lookupServing 3) reads_auditedCall
  obtain ⟨entries, hread, -, hvalid⟩ := haccepted (auditServing _ 0) rfl fun _ => rfl
  cases hread
  exact absurd hvalid (by decide +kernel)

end Patroclus
