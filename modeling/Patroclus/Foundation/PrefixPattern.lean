import Mathlib.Data.List.Infix

/-!
# Prefix patterns

A pattern over words is one word, or a stem that stands for all words that begin with it.
Whether the words of one pattern are among those of another is a test of the two patterns.
-/

namespace Foundation

inductive PrefixPattern (α : Type*) where
  | exact (word : List α)
  | below (stem : List α)
deriving DecidableEq

namespace PrefixPattern

variable {α : Type*} {a b : PrefixPattern α} {word stem : List α}

def Matches : PrefixPattern α → List α → Prop
  | exact word, w => word = w
  | below stem, w => stem <+: w

instance [DecidableEq α] (a : PrefixPattern α) (w : List α) : Decidable (a.Matches w) :=
  match a with
  | exact word => inferInstanceAs (Decidable (word = w))
  | below stem => inferInstanceAs (Decidable (stem <+: w))

/-- The shortest word of a pattern. -/
def text : PrefixPattern α → List α
  | exact word => word
  | below stem => stem

def IsOpen : PrefixPattern α → Prop
  | exact _ => False
  | below _ => True

theorem matches_text (a : PrefixPattern α) : a.Matches a.text := by
  cases a with
  | exact word => exact rfl
  | below stem => exact List.prefix_rfl

/-- A pattern covers another if it matches the shortest word of the other, and is open if the
other is. -/
theorem forall_matches_iff [Nonempty α] : (∀ w, a.Matches w → b.Matches w) ↔
    b.Matches a.text ∧ (a.IsOpen → b.IsOpen) := by
  constructor
  · intro h
    refine ⟨h a.text a.matches_text, fun hopen => ?_⟩
    cases a with
    | exact _ => exact hopen.elim
    | below stem =>
        cases b with
        | below _ => exact trivial
        | exact word =>
            -- a single word is not both the stem and a longer one
            obtain ⟨x⟩ := ‹Nonempty α›
            have hstem : word = stem := h stem List.prefix_rfl
            have hlonger : word = stem ++ [x] := h (stem ++ [x]) (List.prefix_append stem [x])
            simp [hstem] at hlonger
  · rintro ⟨htext, hopen⟩ w hw
    cases a with
    | exact word => exact hw ▸ htext
    | below stem =>
        cases b with
        | exact _ => exact (hopen trivial).elim
        | below _ => exact List.IsPrefix.trans htext hw

end PrefixPattern

end Foundation
