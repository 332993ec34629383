import Mathlib.Algebra.Order.Ring.Int
import Mathlib.Data.List.Basic

/-!
# Rule patterns

`match_pattern` compares a rule's resource or scope pattern with a requested
text. It slices the pattern at a byte offset, and a slice that does not end on a
character boundary panics; `matchPattern?` is the source with that panic as
`none`. The star that each branch has just tested is one byte long, so the slice
always exists, and `matchPattern` is the resulting total predicate.
-/

namespace Patroclus

/-- `&s[..end]` on the characters of a string; `none` off a character boundary. -/
def sliceTo : List Char → Nat → Option (List Char)
  | _, 0 => some []
  | [], _ + 1 => none
  | c :: cs, n + 1 =>
      if c.utf8Size ≤ n + 1 then (sliceTo cs (n + 1 - c.utf8Size)).map (c :: ·) else none

/-- `s.len()`, in bytes. -/
def byteLength (cs : List Char) : Nat := (cs.map Char.utf8Size).sum

theorem sliceTo_append (xs ys : List Char) : sliceTo (xs ++ ys) (byteLength xs) = some xs := by
  induction xs with
  | nil => simp [byteLength, sliceTo]
  | cons x xs ih =>
      have hpos : 0 < x.utf8Size := x.utf8Size_pos
      obtain ⟨n, hn⟩ : ∃ n, byteLength (x :: xs) = n + 1 :=
        ⟨byteLength (x :: xs) - 1, by simp only [byteLength, List.map_cons, List.sum_cons]; omega⟩
      have hrest : n + 1 - x.utf8Size = byteLength xs := by
        rw [← hn]
        simp [byteLength]
      have hle : x.utf8Size ≤ n + 1 := by
        rw [← hn]
        simp [byteLength]
      rw [hn, List.cons_append, sliceTo, if_pos hle, hrest, ih, Option.map_some]

/-- The source's branches in order; `none` is a panicking slice. -/
def matchPattern? (pattern value : List Char) : Option Bool :=
  if pattern = ['*'] ∨ pattern = value then some true
  else if ['/', '*'] <:+ pattern then
    (sliceTo pattern (byteLength pattern - 1)).map fun head => decide (head <+: value)
  else if [':', '*'] <:+ pattern then
    (sliceTo pattern (byteLength pattern - 1)).map fun head => decide (head <+: value)
  else if ['-', '*'] <:+ pattern then
    (sliceTo pattern (byteLength pattern - 1)).map fun head => decide (head <+: value)
  else if ['*'] <:+ pattern then some (decide (pattern.dropLast <+: value))
  else some false

private theorem sliceTo_dropLast {pattern : List Char} (h : ['*'] <:+ pattern) :
    sliceTo pattern (byteLength pattern - 1) = some pattern.dropLast := by
  obtain ⟨head, rfl⟩ := h
  have hlen : byteLength (head ++ ['*']) - 1 = byteLength head := by
    have hstar : '*'.utf8Size = 1 := by decide
    simp [byteLength, hstar]
  rw [hlen, sliceTo_append, List.dropLast_concat]

/-- The slice exists, and every branch tests for a star at the end of the pattern. -/
theorem matchPattern?_eq (pattern value : List Char) :
    matchPattern? pattern value =
      some (decide (pattern = value ∨ ['*'] <:+ pattern ∧ pattern.dropLast <+: value)) := by
  have star {c : Char} (h : [c, '*'] <:+ pattern) : ['*'] <:+ pattern :=
    List.IsSuffix.trans ⟨[c], rfl⟩ h
  have branch {c : Char} (h : [c, '*'] <:+ pattern) (hne : pattern ≠ value) :
      (sliceTo pattern (byteLength pattern - 1)).map (fun head => decide (head <+: value)) =
        some (decide (pattern = value ∨ ['*'] <:+ pattern ∧ pattern.dropLast <+: value)) := by
    rw [sliceTo_dropLast (star h), Option.map_some]
    simp [hne, star h]
  unfold matchPattern?
  split
  · rename_i h
    rcases h with rfl | rfl <;> simp
  · rename_i hne
    obtain ⟨-, hne⟩ := not_or.mp hne
    split
    · exact branch ‹_› hne
    · split
      · exact branch ‹_› hne
      · split
        · exact branch ‹_› hne
        · split <;> simp_all

theorem matchPattern?_isSome (pattern value : List Char) :
    (matchPattern? pattern value).isSome := by
  rw [matchPattern?_eq, Option.isSome_some]

/-- `match_pattern`; its slices never panic. -/
def matchPattern (pattern value : String) : Bool :=
  (matchPattern? pattern.toList value.toList).get (matchPattern?_isSome _ _)

theorem matchPattern_iff {pattern value : String} :
    matchPattern pattern value = true ↔ pattern.toList = value.toList ∨
      ['*'] <:+ pattern.toList ∧ pattern.toList.dropLast <+: value.toList := by
  simp only [matchPattern, matchPattern?_eq, Option.get_some, decide_eq_true_eq]

example : matchPattern "db/*" "db/users" = true := by decide

end Patroclus
