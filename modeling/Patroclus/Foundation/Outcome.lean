import Mathlib.Data.List.Basic

/-!
# Computations that may fail

When a computation in `Except` returns, and with what: one rule for each way to build one.
A traversal of a list returns when each of its steps does.
-/

namespace Foundation

namespace Outcome

variable {α β ε ε' : Type*}

theorem bind_eq_ok {ε α β : Type} {x : Except ε α} {next : α → Except ε β} {b : β} :
    x >>= next = .ok b ↔ ∃ a, x = .ok a ∧ next a = .ok b := by
  cases x with
  | error e => simp [bind, Except.bind]
  | ok a => simp [bind, Except.bind]

theorem mapError_eq_ok {x : Except ε α} {f : ε → ε'} {a : α} :
    x.mapError f = .ok a ↔ x = .ok a := by
  cases x with
  | error e => simp [Except.mapError]
  | ok b => simp [Except.mapError]

theorem toOption_eq_some {x : Except ε α} {a : α} : x.toOption = some a ↔ x = .ok a := by
  cases x with
  | error e => simp [Except.toOption]
  | ok b => simp [Except.toOption]

/-- A traversal whose steps return under a condition, and then with a known value. -/
theorem mapM_eq_ok {ε α β : Type} {step : α → Except ε β} {good : α → Prop} {value : α → β}
    (h : ∀ a b, step a = .ok b ↔ good a ∧ b = value a) {xs : List α} {ys : List β} :
    xs.mapM step = .ok ys ↔ (∀ x ∈ xs, good x) ∧ ys = xs.map value := by
  induction xs generalizing ys with
  | nil =>
      rw [List.mapM_nil, List.map_nil]
      show (.ok [] : Except ε (List β)) = .ok ys ↔ _
      simp [eq_comm]
  | cons x xs ih =>
      rw [List.mapM_cons, bind_eq_ok, List.forall_mem_cons, List.map_cons]
      constructor
      · rintro ⟨b, hstep, hrest⟩
        obtain ⟨hgood, rfl⟩ := (h x b).mp hstep
        obtain ⟨bs, hxs, hys⟩ := bind_eq_ok.mp hrest
        obtain ⟨hall, rfl⟩ := ih.mp hxs
        exact ⟨⟨hgood, hall⟩, (Except.ok.inj hys).symm⟩
      · rintro ⟨⟨hgood, hall⟩, rfl⟩
        refine ⟨value x, (h x _).mpr ⟨hgood, rfl⟩, bind_eq_ok.mpr ⟨xs.map value, ?_, rfl⟩⟩
        exact ih.mpr ⟨hall, rfl⟩

end Outcome

end Foundation
