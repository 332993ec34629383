import Patroclus.Foundation.Action

/-!
# Executions that return

`Returns` is the total judgment of an action: it does not fail from a state, and
its result and its final state satisfy a postcondition. The rules run forwards,
one for each combinator, and an equation for a run is a judgment by itself.
-/

namespace Foundation

universe u

namespace Action

variable {σ ε α β : Type u}

/-- The action returns from `s`, with a result and a state that satisfy `post`. -/
def Returns (act : Action σ ε α) (post : α → σ → Prop) (s : σ) : Prop :=
  ∃ a finish, act s = (.ok a, finish) ∧ post a finish

namespace Returns

variable {act : Action σ ε α} {post post' : α → σ → Prop} {s finish : σ} {a : α}

theorem of_run (run : act s = (.ok a, finish)) (h : post a finish) : act.Returns post s :=
  ⟨a, finish, run, h⟩

theorem mono (h : act.Returns post s) (imp : ∀ a finish, post a finish → post' a finish) :
    act.Returns post' s := by
  obtain ⟨a, finish, hrun, hpost⟩ := h
  exact ⟨a, finish, hrun, imp a finish hpost⟩

theorem pure (h : post a s) : (Pure.pure a : Action σ ε α).Returns post s := ⟨a, s, rfl, h⟩

/-- Sequencing after a first action whose execution is known. -/
theorem bind_run {next : α → Action σ ε β} {post : β → σ → Prop} (run : act s = (.ok a, finish))
    (rest : (next a).Returns post finish) : (act >>= next).Returns post s := by
  obtain ⟨b, finish', hnext, hpost⟩ := rest
  exact ⟨b, finish', bind_ok_iff.mpr ⟨a, finish, run, hnext⟩, hpost⟩

theorem bind {next : α → Action σ ε β} {post : β → σ → Prop} {middle : α → σ → Prop}
    (first : act.Returns middle s) (rest : ∀ a s', middle a s' → (next a).Returns post s') :
    (act >>= next).Returns post s := by
  obtain ⟨a, s', hact, hmiddle⟩ := first
  exact bind_run hact (rest a s' hmiddle)

/-- An attempt returns, and keeps what its action keeps. -/
theorem attempt {γ : Type*} {view : σ → γ} (h : act.Keeps view) (s : σ) :
    act.attempt.Returns (fun _ finish => view finish = view s) s :=
  ⟨(act s).1, (act s).2, rfl, h s⟩

/-- A traversal whose steps all return, with a feature of the result that the element
determines. -/
theorem mapM {γ : Type u} {f : β → Action σ ε α} (result : α → γ) (source : β → γ)
    (h : ∀ x s, (f x).Returns (fun a _ => result a = source x) s) (xs : List β) (s : σ) :
    (xs.mapM f).Returns (fun as _ => as.map result = xs.map source) s := by
  have loop (done : List α) (s : σ) : (List.mapM.loop f xs done).Returns
      (fun as _ => as.map result = done.reverse.map result ++ xs.map source) s := by
    induction xs generalizing done s with
    | nil => exact .pure (by simp)
    | cons x xs ih =>
        obtain ⟨a, middle, hrun, ha⟩ := h x s
        refine (bind_run hrun (ih (a :: done) middle)).mono ?_
        intro as _ has
        rw [has, List.reverse_cons, List.map_append, List.map_singleton, ha, List.append_assoc]
        rfl
  exact loop [] s

end Returns

end Action

end Foundation
