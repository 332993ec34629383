import Patroclus.Foundation.Action

/-!
# Failures that leave nothing behind

An action is clean if every execution that fails with an error of a given kind leaves a view
of the state as it was. What keeps the view is clean, and so is a sequence that keeps it up to
a part that is clean. After a part that has changed the view, nothing may fail any more.
-/

namespace Foundation.Action

universe u

variable {σ ε α β : Type u} {γ : Type*}

/-- A failed execution leaves the view as it was. -/
def Clean (view : σ → γ) (fails : ε → Prop) (act : Action σ ε α) (s : σ) : Prop :=
  ∀ e finish, act s = (.error e, finish) → fails e → view finish = view s

/-- No execution fails. -/
def Avoids (fails : ε → Prop) (act : Action σ ε α) (s : σ) : Prop :=
  ∀ e finish, act s = (.error e, finish) → ¬ fails e

variable {view : σ → γ} {fails : ε → Prop} {act : Action σ ε α} {next : α → Action σ ε β}
  {s middle finish : σ} {a : α} {e : ε}

/-- The failures of a sequence are those of its parts. -/
theorem bind_error_iff : (act >>= next) s = (.error e, finish) ↔ act s = (.error e, finish) ∨
    ∃ a middle, act s = (.ok a, middle) ∧ next a middle = (.error e, finish) := by
  cases hact : act s with
  | mk outcome reached =>
      cases outcome with
      | ok a =>
          rw [bind_run_ok hact]
          constructor
          · intro hnext
            exact .inr ⟨a, reached, rfl, hnext⟩
          · rintro (herror | ⟨b, middle, hact, hnext⟩)
            · cases herror
            · cases hact
              exact hnext
      | error e' => simp [bind_run_error hact]

theorem avoids_of_run (run : act s = (.ok a, middle)) : Avoids fails act s := by
  intro e finish herror
  rw [run] at herror
  cases herror

theorem avoids_of_error (run : act s = (.error e, finish)) :
    Avoids fails act s ↔ ¬ fails e := by
  constructor
  · intro h
    exact h e finish run
  · intro h e' finish' run'
    rw [run] at run'
    cases run'
    exact h

theorem avoids_bind_iff : Avoids fails (act >>= next) s ↔
    Avoids fails act s ∧ ∀ a middle, act s = (.ok a, middle) → Avoids fails (next a) middle := by
  constructor
  · intro h
    refine ⟨fun e finish hact => ?_, fun a middle hact e finish hnext => ?_⟩
    · exact h e finish (bind_error_iff.mpr (.inl hact))
    · exact h e finish (bind_error_iff.mpr (.inr ⟨a, middle, hact, hnext⟩))
  · rintro ⟨hfirst, hnext⟩ e finish run
    obtain hact | ⟨a, middle, hact, hrest⟩ := bind_error_iff.mp run
    · exact hfirst e finish hact
    · exact hnext a middle hact e finish hrest

theorem avoids_bind_of_run (run : act s = (.ok a, middle)) :
    Avoids fails (act >>= next) s ↔ Avoids fails (next a) middle := by
  rw [Avoids, Avoids, bind_run_ok run]

theorem avoids_bind_pure {f : α → β} : Avoids fails (act >>= fun a => pure (f a)) s ↔
    Avoids fails act s :=
  avoids_bind_iff.trans (and_iff_left fun _ _ _ => avoids_of_run rfl)

theorem Keeps.clean (h : act.Keeps view) (s : σ) : Clean view fails act s :=
  fun _ _ run _ => h.eq run

/-- A sequence that begins with a frame is clean as its continuation is. -/
theorem clean_bind_iff (first : act.Keeps view) : Clean view fails (act >>= next) s ↔
    ∀ a middle, act s = (.ok a, middle) → Clean view fails (next a) middle := by
  constructor
  · intro h a middle hact e finish hnext hfails
    rw [h e finish (bind_error_iff.mpr (.inr ⟨a, middle, hact, hnext⟩)) hfails, first.eq hact]
  · intro h e finish run hfails
    obtain hact | ⟨a, middle, hact, hnext⟩ := bind_error_iff.mp run
    · exact first.eq hact
    · rw [h a middle hact e finish hnext hfails, first.eq hact]

/-- A sequence whose continuation cannot fail without a trace is clean exactly if its first
part is and its continuation does not fail. -/
theorem clean_bind_iff_of_marks (marks : ∀ a middle, act s = (.ok a, middle) → ∀ e finish,
    next a middle = (.error e, finish) → view finish ≠ view s) :
    Clean view fails (act >>= next) s ↔ Clean view fails act s ∧
      ∀ a middle, act s = (.ok a, middle) → Avoids fails (next a) middle := by
  constructor
  · intro h
    refine ⟨fun e finish hact => ?_, fun a middle hact e finish hnext hfails => ?_⟩
    · exact h e finish (bind_error_iff.mpr (.inl hact))
    · exact marks a middle hact e finish hnext
        (h e finish (bind_error_iff.mpr (.inr ⟨a, middle, hact, hnext⟩)) hfails)
  · rintro ⟨hfirst, hnext⟩ e finish run hfails
    obtain hact | ⟨a, middle, hact, hrest⟩ := bind_error_iff.mp run
    · exact hfirst e finish hact hfails
    · exact absurd hfails (hnext a middle hact e finish hrest)

/-- What is done to the result of an action does not matter. -/
theorem clean_bind_pure {f : α → β} : Clean view fails (act >>= fun a => pure (f a)) s ↔
    Clean view fails act s := by
  refine forall₂_congr fun e finish => ?_
  rw [bind_error_iff]
  refine imp_congr_left (or_iff_left ?_)
  rintro ⟨a, middle, -, hpure⟩
  cases hpure

end Foundation.Action
