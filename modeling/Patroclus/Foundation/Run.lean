import Mathlib.Data.List.Induction

/-!
# Guarded runs

A deterministic machine is a step function; a run is the list of the inputs it
is fed. `Along ok` says that every input of a run satisfies `ok` in the state in
which it arrives. The induction over runs is done once, in `Along.invariant`:
an invariant needs one step lemma, which may use the guard of that step.
-/

namespace Foundation

variable {σ ι : Type*}

/-- Each input meets `ok` in the state that the inputs before it have reached. -/
def Along (step : σ → ι → σ) (ok : σ → ι → Prop) : σ → List ι → Prop
  | _, [] => True
  | s, input :: rest => ok s input ∧ Along step ok (step s input) rest

namespace Along

instance instDecidable (step : σ → ι → σ) (ok : σ → ι → Prop)
    [∀ s input, Decidable (ok s input)] : ∀ s inputs, Decidable (Along step ok s inputs)
  | _, [] => inferInstanceAs (Decidable True)
  | s, input :: rest =>
      have := instDecidable step ok (step s input) rest
      inferInstanceAs (Decidable (_ ∧ _))

variable {step : σ → ι → σ} {ok ok' : σ → ι → Prop} {s : σ} {inputs rest : List ι}

/-- A guard along a run, input by input. -/
theorem iff_forall : Along step ok s inputs ↔
    ∀ done input, done ++ [input] <+: inputs → ok (done.foldl step s) input := by
  induction inputs generalizing s with
  | nil =>
      refine iff_of_true trivial fun done input hprefix => ?_
      simp at hprefix
  | cons head inputs ih =>
      constructor
      · rintro ⟨hok, hrest⟩ done input hprefix
        cases done with
        | nil =>
            obtain ⟨rfl, -⟩ := List.cons_prefix_cons.mp hprefix
            exact hok
        | cons first done =>
            obtain ⟨rfl, htail⟩ := List.cons_prefix_cons.mp hprefix
            exact ih.mp hrest done input htail
      · intro h
        refine ⟨h [] head (List.prefix_append [head] inputs), ih.mpr fun done input hprefix => ?_⟩
        exact h (head :: done) input (List.cons_prefix_cons.mpr ⟨rfl, hprefix⟩)

/-- Guards that agree on the inputs of a run hold along the same runs. -/
theorem congr (h : ∀ input ∈ inputs, ∀ s, ok s input ↔ ok' s input) :
    Along step ok s inputs ↔ Along step ok' s inputs := by
  induction inputs generalizing s with
  | nil => exact Iff.rfl
  | cons input inputs ih =>
      exact and_congr (h input (by simp) s) (ih fun next hnext => h next (by simp [hnext]))

/-- Guards that agree in the states of an invariant, which the first of them keeps, hold
along the same runs. The inputs may be assumed to meet `env`. -/
theorem congr_of_invariant {I : σ → Prop} {env : ι → Prop}
    (exact : ∀ s input, env input → I s → (ok s input ↔ ok' s input))
    (preserved : ∀ s input, I s → ok s input → I (step s input))
    (henv : ∀ input ∈ inputs, env input) (start : I s) :
    Along step ok s inputs ↔ Along step ok' s inputs := by
  induction inputs generalizing s with
  | nil => exact Iff.rfl
  | cons input inputs ih =>
      have hexact := exact s input (henv input (by simp)) start
      have hrest := fun next hnext => henv next (List.mem_cons_of_mem input hnext)
      constructor
      · rintro ⟨hok, hafter⟩
        exact ⟨hexact.mp hok, (ih hrest (preserved s input start hok)).mp hafter⟩
      · rintro ⟨hok, hafter⟩
        have hok := hexact.mpr hok
        exact ⟨hok, (ih hrest (preserved s input start hok)).mpr hafter⟩

/-- A guard that does not depend on the state is checked input by input. -/
theorem of_forall (h : ∀ input ∈ inputs, ∀ s, ok s input) : Along step ok s inputs := by
  induction inputs generalizing s with
  | nil => trivial
  | cons input inputs ih =>
      exact ⟨h input (by simp) s, ih fun next hnext => h next (by simp [hnext])⟩

/-- What every step keeps holds along every run. -/
theorem of_preserved {I : σ → Prop} (preserved : ∀ s input, I s → I (step s input)) (start : I s) :
    Along step (fun s _ => I s) s inputs := by
  induction inputs generalizing s with
  | nil => trivial
  | cons input inputs ih => exact ⟨start, ih (preserved s input start)⟩

/-- A guard that says exactly when one more input keeps a property of the inputs so far
says exactly which runs keep it throughout. -/
theorem iff_history {I : List ι → Prop} (exact : ∀ done input, done ++ [input] <+: inputs →
    I done → (I (done ++ [input]) ↔ ok (done.foldl step s) input)) (start : I []) :
    Along step ok s inputs ↔ ∀ done, done <+: inputs → I done := by
  rw [iff_forall]
  constructor
  · intro hok done hdone
    induction done using List.reverseRecOn with
    | nil => exact start
    | append_singleton done input ih =>
        have hkept := ih ((List.prefix_append done [input]).trans hdone)
        exact (exact done input hdone hkept).mpr (hok done input hdone)
  · intro h done input hdone
    have hkept := h done ((List.prefix_append done [input]).trans hdone)
    exact (exact done input hdone hkept).mp (h _ hdone)

/-- A guard that says exactly when a step keeps `I` says exactly which runs keep it
in every state that they reach. The inputs may be assumed to meet `env`. -/
theorem iff_invariant {I : σ → Prop} {env : σ → ι → Prop}
    (exact : ∀ s input, env s input → I s → (I (step s input) ↔ ok s input))
    (henv : Along step env s inputs) (start : I s) :
    Along step ok s inputs ↔ ∀ done, done <+: inputs → I (done.foldl step s) := by
  refine iff_history (I := fun done => I (done.foldl step s)) ?_ start
  intro done input hdone hkept
  rw [List.foldl_append]
  exact exact _ input (iff_forall.mp henv done input hdone) hkept

/-- Where what is lost once stays lost, a guard that says exactly when a step keeps `I`
says exactly which runs end in `I`. The inputs may be assumed to meet `env`. -/
theorem iff_final_of_env {I : σ → Prop} {env : σ → ι → Prop}
    (exact : ∀ s input, env s input → I s → (I (step s input) ↔ ok s input))
    (lasting : ∀ s input, env s input → ¬ I s → ¬ I (step s input))
    (henv : Along step env s inputs) (start : I s) :
    Along step ok s inputs ↔ I (inputs.foldl step s) := by
  induction inputs generalizing s with
  | nil => exact iff_of_true trivial start
  | cons input inputs ih =>
      obtain ⟨hinput, hinputs⟩ := henv
      have hstep := exact s input hinput start
      constructor
      · rintro ⟨hok, hrest⟩
        exact (ih hinputs (hstep.mpr hok)).mp hrest
      · intro hfinal
        have hlasts (done : List ι) (s : σ) (henv : Along step env s done)
            (hlost : ¬ I s) : ¬ I (done.foldl step s) := by
          induction done generalizing s with
          | nil => exact hlost
          | cons next done ih => exact ih _ henv.2 (lasting s next henv.1 hlost)
        have hkept : I (step s input) := by
          by_contra hlost
          exact hlasts inputs _ hinputs hlost hfinal
        exact ⟨hstep.mp hkept, (ih hinputs hkept).mpr hfinal⟩

theorem iff_final {I : σ → Prop} (exact : ∀ s input, I s → (I (step s input) ↔ ok s input))
    (lasting : ∀ s input, ¬ I s → ¬ I (step s input)) (start : I s) :
    Along step ok s inputs ↔ I (inputs.foldl step s) :=
  iff_final_of_env (fun s input (_ : True) => exact s input)
    (fun s input _ => lasting s input) (of_forall fun _ _ _ => trivial) start

/-- An invariant of the machine: one step keeps it, so a whole run does. -/
theorem invariant {I : σ → Prop} (preserved : ∀ s input, I s → ok s input → I (step s input))
    (start : I s) (h : Along step ok s inputs) : I (inputs.foldl step s) := by
  induction inputs generalizing s with
  | nil => exact start
  | cons input inputs ih => exact ih (preserved s input start h.1) h.2

/-- A guard along a run holds along its beginnings. -/
theorem of_prefix {done : List ι} (h : Along step ok s inputs) (hdone : done <+: inputs) :
    Along step ok s done :=
  iff_forall.mpr fun before input hbefore => iff_forall.mp h before input (hbefore.trans hdone)

/-- Where an invariant makes states safe, and a step that breaks the guard reaches an unsafe
one, the guard says exactly which runs are safe throughout. -/
theorem iff_safe {I Safe : σ → Prop} (safe : ∀ s, I s → Safe s)
    (preserved : ∀ s input, I s → ok s input → I (step s input))
    (breaks : ∀ s input, I s → ¬ ok s input → ¬ Safe (step s input)) (start : I s) :
    Along step ok s inputs ↔ ∀ done, done <+: inputs → Safe (done.foldl step s) := by
  constructor
  · intro h done hdone
    exact safe _ (invariant preserved start (h.of_prefix hdone))
  · intro h
    induction inputs generalizing s with
    | nil => trivial
    | cons input inputs ih =>
        have hok : ok s input := by
          by_contra hbroken
          exact breaks s input start hbroken (h [input] (List.prefix_append [input] inputs))
        refine ⟨hok, ih (preserved s input start hok) fun done hdone => ?_⟩
        exact h (input :: done) (List.cons_prefix_cons.mpr ⟨rfl, hdone⟩)

end Along

end Foundation
