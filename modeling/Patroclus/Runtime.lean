import Patroclus.Foundation.Action
import Patroclus.Platform
import Patroclus.Db.Tables
import Patroclus.Errors

/-!
# The runtime of a request

A handler runs against the application state and a tape: the clock readings, the
drawn identifiers, the random bytes and the database failures that it will meet,
in the order of its steps. Theorems quantify over tapes, so they hold for every
clock, every choice of ids and every pattern of failing statements.

The ledger is not part of the program. It lists every token that the issuer has
signed, with the call it was signed for, so that statements can speak about
where a token comes from.
-/

namespace Patroclus

open Foundation

structure Tape where
  now : Nat → Instant
  uuid : Nat → Uuid
  random : Nat → List UInt8
  fault : Nat → Option String

/-- A tape on which the clock stands still, each step draws the next id, and no
statement fails. -/
def Tape.steady (now : Instant) (firstId : Nat) : Tape where
  now _ := now
  uuid n := ⟨BitVec.ofNat 128 (firstId + n)⟩
  random _ := []
  fault _ := none

/-- The shared state of the server that the handlers change. -/
structure AppState where
  db : Db
  policyEngine : YamlEngine
  jtiStore : Finset String
  sessionStore : SessionStore

/-- The call that a token was signed for. -/
inductive Origin where
  | requestAccess (agentId : Uuid)
  | delegate (presenter : Uuid) (parentToken : String)
  | principalDelegate (grantId : Uuid)
deriving DecidableEq, Repr

/-- A signed token. `clock` is the reading from which its expiry was counted. -/
structure Minted where
  origin : Origin
  token : String
  claims : AgentClaims
  clock : Instant
deriving DecidableEq, Repr

structure Serving where
  app : AppState
  ledger : List Minted
  tape : Tape
  tick : Nat

abbrev Handler (α : Type) : Type := Action Serving Failure α

instance : LawfulMonad Handler := inferInstanceAs (LawfulMonad (Action Serving Failure))

namespace Serving

/-- One step of the tape is used up. -/
def next (s : Serving) : Serving := { s with tick := s.tick + 1 }

def withApp (s : Serving) (update : AppState → AppState) : Serving := { s with app := update s.app }

def withDb (s : Serving) (db : Db) : Serving := s.withApp fun app => { app with db }

@[simp] theorem next_app (s : Serving) : s.next.app = s.app := rfl

@[simp] theorem next_ledger (s : Serving) : s.next.ledger = s.ledger := rfl

@[simp] theorem next_tape (s : Serving) : s.next.tape = s.tape := rfl

@[simp] theorem next_tick (s : Serving) : s.next.tick = s.tick + 1 := rfl

@[simp] theorem withApp_app (s : Serving) (update : AppState → AppState) :
    (s.withApp update).app = update s.app := rfl

@[simp] theorem withApp_ledger (s : Serving) (update : AppState → AppState) :
    (s.withApp update).ledger = s.ledger := rfl

@[simp] theorem withApp_tape (s : Serving) (update : AppState → AppState) :
    (s.withApp update).tape = s.tape := rfl

@[simp] theorem withApp_tick (s : Serving) (update : AppState → AppState) :
    (s.withApp update).tick = s.tick := rfl

@[simp] theorem withDb_app (s : Serving) (db : Db) :
    (s.withDb db).app = { s.app with db := db } := rfl

@[simp] theorem withDb_ledger (s : Serving) (db : Db) : (s.withDb db).ledger = s.ledger := rfl

@[simp] theorem withDb_tape (s : Serving) (db : Db) : (s.withDb db).tape = s.tape := rfl

@[simp] theorem withDb_tick (s : Serving) (db : Db) : (s.withDb db).tick = s.tick := rfl

end Serving

/-! ## Steps -/

def raise {α : Type} (e : PatroclusError) : Handler α := Action.fail (.error e)

/-- `Utc::now()`. -/
def utcNow : Handler Instant := fun s => (.ok (s.tape.now s.tick), s.next)

/-- `Uuid::now_v7()`. -/
def nowV7 : Handler Uuid := fun s => (.ok (s.tape.uuid s.tick), s.next)

/-- Bytes of the operating system's generator. -/
def randomBytes : Handler (List UInt8) := fun s => (.ok (s.tape.random s.tick), s.next)

/-- A computation whose `none` is a panic. -/
def orPanic {α : Type} : Option α → Handler α
  | some a => pure a
  | none => Action.fail .panic

def modifyApp (update : AppState → AppState) : Handler Unit :=
  Action.write fun s => s.withApp update

def modifySessions (update : SessionStore → SessionStore) : Handler Unit :=
  modifyApp fun app => { app with sessionStore := update app.sessionStore }

/-- One statement on the database. It fails when the tape says so, and when it
violates a constraint; a statement that fails changes nothing. -/
def sql {α : Type} (statement : Db → Except String (α × Db)) : Handler α := fun s =>
  match s.tape.fault s.tick with
  | some message => (.error (.error (.database message)), s.next)
  | none =>
      match statement s.app.db with
      | .error message => (.error (.error (.database message)), s.next)
      | .ok (a, db) => (.ok a, s.next.withDb db)

/-- One query. -/
def query {α : Type} (select : Db → α) : Handler α := sql fun db => .ok (select db, db)

/-- `query_map` with `filter_map(|r| r.ok())`. Each row takes a step of the statement and a
conversion. A step that fails ends the rows, a row that cannot be converted is left out. -/
def deliverRows {α : Type} : List α → Handler (List α)
  | [] => pure []
  | row :: rest => fun s =>
      match s.tape.fault s.tick with
      | some _ => (.ok [], s.next)
      | none =>
          match s.tape.fault (s.tick + 1) with
          | some _ => deliverRows rest s.next.next
          | none => (do return row :: (← deliverRows rest)) s.next.next

/-! ## What a step can do -/

section

variable {α : Type} {s : Serving} {post : Except Failure α → Serving → Prop}

@[simp] theorem utcNow_run : utcNow s = (.ok (s.tape.now s.tick), s.next) := rfl

@[simp] theorem nowV7_run : nowV7 s = (.ok (s.tape.uuid s.tick), s.next) := rfl

@[simp] theorem modifyApp_run (update : AppState → AppState) :
    modifyApp update s = (.ok (), s.withApp update) := rfl

@[simp] theorem orPanic_some (a : α) : (orPanic (some a) : Handler α) = pure a := rfl

theorem orPanic_eq_ok {value : Option α} {a : α} {finish : Serving}
    (h : orPanic value s = (.ok a, finish)) : value = some a ∧ s = finish := by
  cases value with
  | none => cases h
  | some b =>
      cases h
      exact ⟨rfl, rfl⟩

theorem raise_ne_ok {e : PatroclusError} {a : α} {finish : Serving} :
    (raise e : Handler α) s ≠ (.ok a, finish) := by
  intro h
  cases h

/-- A statement that returned was not failed by the tape, and its effect is the statement's. -/
theorem sql_eq_ok {statement : Db → Except String (α × Db)} {a : α} {finish : Serving} :
    sql statement s = (.ok a, finish) ↔ s.tape.fault s.tick = none ∧
      ∃ db, statement s.app.db = .ok (a, db) ∧ finish = s.next.withDb db := by
  rw [sql]
  cases hfault : s.tape.fault s.tick with
  | some message => simp
  | none =>
      rcases hstatement : statement s.app.db with message | ⟨b, db⟩
      · simp
      · simp only [Prod.mk.injEq, Except.ok.injEq, true_and]
        constructor
        · rintro ⟨rfl, rfl⟩
          exact ⟨db, ⟨rfl, rfl⟩, rfl⟩
        · rintro ⟨_, ⟨rfl, rfl⟩, rfl⟩
          exact ⟨rfl, rfl⟩

/-- A statement that neither the tape nor a constraint fails. -/
theorem sql_run {statement : Db → Except String (α × Db)} {a : α} {db : Db}
    (hfault : s.tape.fault s.tick = none) (hstatement : statement s.app.db = .ok (a, db)) :
    sql statement s = (.ok a, s.next.withDb db) :=
  sql_eq_ok.mpr ⟨hfault, db, hstatement, rfl⟩

/-- A statement that the tape fails. -/
theorem sql_fault {statement : Db → Except String (α × Db)} {message : String}
    (h : s.tape.fault s.tick = some message) :
    sql statement s = (.error (.error (.database message)), s.next) := by
  rw [sql]
  rw [h]

/-- A statement that failed changed nothing. -/
theorem sql_eq_error {statement : Db → Except String (α × Db)} {e : Failure} {finish : Serving}
    (h : sql statement s = (.error e, finish)) : finish = s.next := by
  rw [sql] at h
  split at h
  · exact (Prod.mk.inj h).2.symm
  · split at h
    · exact (Prod.mk.inj h).2.symm
    · cases h

@[simp] theorem query_eq_ok {select : Db → α} {a : α} {finish : Serving} :
    query select s = (.ok a, finish) ↔
      s.tape.fault s.tick = none ∧ a = select s.app.db ∧ finish = s.next := by
  rw [query]
  rw [sql_eq_ok]
  constructor
  · rintro ⟨hfault, db, hstatement, rfl⟩
    cases hstatement
    exact ⟨hfault, rfl, rfl⟩
  · rintro ⟨hfault, rfl, rfl⟩
    exact ⟨hfault, _, rfl, rfl⟩

theorem query_run {select : Db → α} (hfault : s.tape.fault s.tick = none) :
    query select s = (.ok (select s.app.db), s.next) :=
  query_eq_ok.mpr ⟨hfault, rfl, rfl⟩

/-- A query that the tape fails. -/
theorem query_fault {select : Db → α} {message : String}
    (h : s.tape.fault s.tick = some message) :
    query select s = (.error (.error (.database message)), s.next) :=
  sql_fault h

end

/-! ## Frames -/

section

variable {α : Type} {γ : Type*} {view : Serving → γ}

/-- A view of the state that does not count the steps of the tape. -/
def TickFree (view : Serving → γ) : Prop := ∀ s, view s.next = view s

/-- Everything of the state but the steps of the tape that were used up. -/
def Serving.still (s : Serving) : AppState × List Minted × Tape := (s.app, s.ledger, s.tape)

theorem tickFree_still : TickFree Serving.still := fun _ => rfl

theorem keeps_raise (e : PatroclusError) : (raise e : Handler α).Keeps view := Action.Keeps.fail _

theorem keeps_orPanic (value : Option α) : (orPanic value).Keeps view := by
  cases value with
  | none => exact Action.Keeps.fail _
  | some a => exact Action.Keeps.pure a

theorem keeps_utcNow (h : TickFree view) : utcNow.Keeps view := fun s => h s

theorem keeps_nowV7 (h : TickFree view) : nowV7.Keeps view := fun s => h s

theorem keeps_randomBytes (h : TickFree view) : randomBytes.Keeps view := fun s => h s

theorem keeps_modifyApp {update : AppState → AppState}
    (h : ∀ s, view (s.withApp update) = view s) : (modifyApp update).Keeps view := h

theorem keeps_sql {statement : Db → Except String (α × Db)} (h : TickFree view)
    (frame : ∀ s a db, statement s.app.db = .ok (a, db) → view (s.withDb db) = view s) :
    (sql statement).Keeps view := by
  intro s
  rw [sql]
  split
  · exact h s
  · split
    · exact h s
    · rename_i hstatement
      exact (frame s.next _ _ hstatement).trans (h s)

theorem keeps_query {select : Db → α} (h : TickFree view) : (query select).Keeps view :=
  keeps_sql h fun s a db hdb => by
    cases hdb
    rfl

theorem keeps_deliverRows (h : TickFree view) (rows : List α) : (deliverRows rows).Keeps view := by
  induction rows with
  | nil => exact Action.Keeps.pure _
  | cons row rest ih =>
      intro s
      unfold deliverRows
      split
      · exact h s
      · split
        · exact (ih s.next.next).trans ((h s.next).trans (h s))
        · exact (ih.bind (fun _ => Action.Keeps.pure _) s.next.next).trans
            ((h s.next).trans (h s))

end

end Patroclus
