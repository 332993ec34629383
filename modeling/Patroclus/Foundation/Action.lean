import Mathlib.Init

/-!
# Actions whose failures keep their effects

An action reads and writes a state, and either returns or fails. A failure does
not undo what was written before it: a request handler that stops half way
leaves its earlier writes in place, and only the caller sees an error.

`WP` is the weakest precondition of an action, with one rewriting rule for each
combinator. A postcondition receives the outcome and the final state, so it
speaks about failed executions as well as successful ones. `Keeps` is the frame
judgment: a view of the state that no execution of the action changes.
-/

namespace Foundation

universe u

/-- A computation on states `σ` that returns an `α` or fails with an `ε`. -/
def Action (σ ε α : Type u) : Type u := σ → Except ε α × σ

namespace Action

variable {σ ε α β : Type u}

instance : Monad (Action σ ε) where
  pure a := fun s => (.ok a, s)
  bind act next := fun s =>
    match act s with
    | (.ok a, middle) => next a middle
    | (.error e, finish) => (.error e, finish)

/-- Stop with an error; the state stays as it is. -/
def fail (e : ε) : Action σ ε α := fun s => (.error e, s)

/-- Observe the state. -/
def read (view : σ → α) : Action σ ε α := fun s => (.ok (view s), s)

/-- Update the state. -/
def write (update : σ → σ) : Action σ ε PUnit := fun s => (.ok ⟨⟩, update s)

/-- Run an action and hand its outcome to the continuation, as `.ok()` or
`match` on a result does. Writes made before a failure remain. -/
def attempt (act : Action σ ε α) : Action σ ε (Except ε α) := fun s =>
  (.ok (act s).1, (act s).2)

/-- Continue with a value that has already been computed, or with its error. -/
def lift : Except ε α → Action σ ε α
  | .ok a => pure a
  | .error e => fail e

@[simp] theorem pure_run (a : α) (s : σ) : (pure a : Action σ ε α) s = (.ok a, s) := rfl

@[simp] theorem fail_run (e : ε) (s : σ) : (fail e : Action σ ε α) s = (.error e, s) := rfl

@[simp] theorem read_run (view : σ → α) (s : σ) :
    (read view : Action σ ε α) s = (.ok (view s), s) := rfl

@[simp] theorem write_run (update : σ → σ) (s : σ) :
    (write update : Action σ ε PUnit) s = (.ok ⟨⟩, update s) := rfl

@[simp] theorem attempt_run (act : Action σ ε α) (s : σ) :
    act.attempt s = (.ok (act s).1, (act s).2) := rfl

@[simp] theorem lift_ok (a : α) : (lift (.ok a) : Action σ ε α) = pure a := rfl

@[simp] theorem lift_error (e : ε) : (lift (.error e) : Action σ ε α) = fail e := rfl

/-- Sequencing after a successful first action. -/
theorem bind_run_ok {act : Action σ ε α} {next : α → Action σ ε β} {s middle : σ} {a : α}
    (h : act s = (.ok a, middle)) : (act >>= next) s = next a middle := by
  change (match act s with
    | (.ok a, middle) => next a middle
    | (.error e, finish) => (.error e, finish)) = _
  rw [h]

/-- A failed first action ends the sequence. -/
theorem bind_run_error {act : Action σ ε α} {next : α → Action σ ε β} {s finish : σ} {e : ε}
    (h : act s = (.error e, finish)) : (act >>= next) s = (.error e, finish) := by
  change (match act s with
    | (.ok a, middle) => next a middle
    | (.error e, finish) => (.error e, finish)) = _
  rw [h]

instance : LawfulMonad (Action σ ε) := by
  refine LawfulMonad.mk' _ ?_ ?_ ?_
  · intro α act
    funext s
    rcases hact : act s with ⟨e | a, middle⟩
    · exact bind_run_error hact
    · exact bind_run_ok hact
  · intro α β a next
    rfl
  · intro α β γ act first second
    funext s
    rcases hact : act s with ⟨e | a, middle⟩
    · rw [bind_run_error hact, bind_run_error (bind_run_error hact)]
    · rw [bind_run_ok hact]
      show (match (act >>= first) s with
        | (.ok b, middle) => second b middle
        | (.error e, finish) => (.error e, finish)) = _
      rw [bind_run_ok hact]
      rfl

/-- A sequence returns exactly when both of its parts do. -/
theorem bind_ok_iff {act : Action σ ε α} {next : α → Action σ ε β} {s finish : σ} {b : β} :
    (act >>= next) s = (.ok b, finish) ↔
      ∃ a middle, act s = (.ok a, middle) ∧ next a middle = (.ok b, finish) := by
  constructor
  · intro h
    rcases hact : act s with ⟨outcome, middle⟩
    cases outcome with
    | ok a => exact ⟨a, middle, rfl, by rwa [bind_run_ok hact] at h⟩
    | error e =>
        rw [bind_run_error hact] at h
        cases h
  · rintro ⟨a, middle, hact, hnext⟩
    rw [bind_run_ok hact, hnext]

/-- A traversal whose steps all return, whatever the state, returns their results. -/
theorem mapM_run {f : β → Action σ ε α} {g : β → α} {xs : List β}
    (h : ∀ x ∈ xs, ∀ s, ∃ finish, f x s = (.ok (g x), finish)) (s : σ) :
    ∃ finish, xs.mapM f s = (.ok (xs.map g), finish) := by
  have loop (done : List α) : ∃ finish,
      List.mapM.loop f xs done s = (.ok (done.reverse ++ xs.map g), finish) := by
    induction xs generalizing done s with
    | nil => exact ⟨s, by simp [List.mapM.loop]⟩
    | cons x xs ih =>
        obtain ⟨middle, hx⟩ := h x (by simp) s
        obtain ⟨finish, hrest⟩ := ih (fun y hy => h y (by simp [hy])) middle (g x :: done)
        refine ⟨finish, ?_⟩
        rw [List.mapM.loop, bind_run_ok hx, hrest]
        simp
  obtain ⟨finish, hrun⟩ := loop []
  exact ⟨finish, by simpa [List.mapM] using hrun⟩

/-! ## Weakest preconditions -/

/-- Every outcome of `act` from `s`, returned or failed, satisfies `post`. -/
def WP (act : Action σ ε α) (post : Except ε α → σ → Prop) (s : σ) : Prop :=
  post (act s).1 (act s).2

/-- What a continuation must still establish after its first action. -/
def Then (next : α → Action σ ε β) (post : Except ε β → σ → Prop) : Except ε α → σ → Prop
  | .ok a, middle => WP (next a) post middle
  | .error e, finish => post (.error e) finish

namespace WP

variable {act : Action σ ε α} {post post' : Except ε α → σ → Prop} {s : σ}

theorem mono (h : WP act post s) (imp : ∀ outcome finish, post outcome finish →
    post' outcome finish) : WP act post' s :=
  imp _ _ h

@[simp] theorem pure_iff {a : α} : WP (pure a : Action σ ε α) post s ↔ post (.ok a) s := Iff.rfl

@[simp] theorem fail_iff {e : ε} : WP (fail e : Action σ ε α) post s ↔ post (.error e) s := Iff.rfl

@[simp] theorem read_iff {view : σ → α} :
    WP (read view : Action σ ε α) post s ↔ post (.ok (view s)) s := Iff.rfl

@[simp] theorem write_iff {update : σ → σ} {post : Except ε PUnit → σ → Prop} :
    WP (write update : Action σ ε PUnit) post s ↔ post (.ok ⟨⟩) (update s) := Iff.rfl

@[simp] theorem attempt_iff {post : Except ε (Except ε α) → σ → Prop} :
    WP act.attempt post s ↔ WP act (fun outcome finish => post (.ok outcome) finish) s := Iff.rfl

@[simp] theorem bind_iff {next : α → Action σ ε β} {post : Except ε β → σ → Prop} :
    WP (act >>= next) post s ↔ WP act (Then next post) s := by
  rcases hact : act s with ⟨outcome, middle⟩
  cases outcome with
  | ok a => simp only [WP, Then, bind_run_ok hact, hact]
  | error e => simp only [WP, Then, bind_run_error hact, hact]

/-- Sequencing by cases on what the first action does. -/
theorem bind_of {next : α → Action σ ε β} {post : Except ε β → σ → Prop}
    (hok : ∀ a middle, act s = (.ok a, middle) → WP (next a) post middle)
    (herror : ∀ e finish, act s = (.error e, finish) → post (.error e) finish) :
    WP (act >>= next) post s := by
  rw [bind_iff]
  rcases hact : act s with ⟨outcome, middle⟩
  cases outcome with
  | ok a =>
      simp only [WP, hact]
      exact hok a middle hact
  | error e =>
      simp only [WP, hact]
      exact herror e middle hact

/-- Sequencing after a first action whose execution is known. -/
theorem bind_run {next : α → Action σ ε β} {post : Except ε β → σ → Prop} {a : α} {middle : σ}
    (run : act s = (.ok a, middle)) (rest : WP (next a) post middle) :
    WP (act >>= next) post s := by
  rw [WP, bind_run_ok run]
  exact rest

@[simp] theorem then_ok {next : α → Action σ ε β} {post : Except ε β → σ → Prop} {a : α} :
    Then next post (.ok a) s ↔ WP (next a) post s := Iff.rfl

@[simp] theorem then_error {next : α → Action σ ε β} {post : Except ε β → σ → Prop} {e : ε} :
    Then next post (.error e) s ↔ post (.error e) s := Iff.rfl

end WP

/-! ## Frames -/

/-- No execution of `act` changes what `view` sees. -/
def Keeps {γ : Type*} (view : σ → γ) (act : Action σ ε α) : Prop := ∀ s, view (act s).2 = view s

namespace Keeps

variable {γ δ : Type*} {view : σ → γ}

theorem pure (a : α) : Keeps view (Pure.pure a : Action σ ε α) := fun _ => rfl

theorem fail (e : ε) : Keeps view (Action.fail e : Action σ ε α) := fun _ => rfl

theorem read (observe : σ → α) : Keeps view (Action.read observe : Action σ ε α) := fun _ => rfl

theorem write {update : σ → σ} (h : ∀ s, view (update s) = view s) :
    Keeps view (Action.write update : Action σ ε PUnit) := h

theorem lift (value : Except ε α) : Keeps view (Action.lift value : Action σ ε α) := by
  cases value <;> exact fun _ => rfl

theorem attempt {act : Action σ ε α} (h : act.Keeps view) : act.attempt.Keeps view := h

theorem bind {act : Action σ ε α} {next : α → Action σ ε β} (first : act.Keeps view)
    (rest : ∀ a, (next a).Keeps view) : (act >>= next).Keeps view := by
  intro s
  have hfirst := first s
  rcases hact : act s with ⟨outcome, middle⟩
  rw [hact] at hfirst
  cases outcome with
  | ok a => rw [bind_run_ok hact, rest a middle, hfirst]
  | error e => rw [bind_run_error hact, hfirst]

theorem ite {c : Prop} [Decidable c] {yes no : Action σ ε α} (hyes : yes.Keeps view)
    (hno : no.Keeps view) : (if c then yes else no).Keeps view := by
  split
  · exact hyes
  · exact hno

theorem mapM {f : β → Action σ ε α} (h : ∀ b, (f b).Keeps view) (xs : List β) :
    (xs.mapM f).Keeps view := by
  have loop (done : List α) : (List.mapM.loop f xs done).Keeps view := by
    induction xs generalizing done with
    | nil => exact Keeps.pure _
    | cons x xs ih => exact (h x).bind fun a => ih (a :: done)
  exact loop []

/-- A frame as a postcondition. -/
theorem wp {act : Action σ ε α} (h : act.Keeps view) {post : Except ε α → σ → Prop} {s : σ}
    (imp : ∀ outcome finish, view finish = view s → post outcome finish) : act.WP post s :=
  imp _ _ (h s)

theorem eq {act : Action σ ε α} (h : act.Keeps view) {s finish : σ} {outcome : Except ε α}
    (run : act s = (outcome, finish)) : view finish = view s := by
  simpa only [run] using h s

end Keeps

end Action

end Foundation
