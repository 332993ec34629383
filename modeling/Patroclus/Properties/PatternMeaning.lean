import Patroclus.Foundation.PrefixPattern
import Patroclus.Crate.Text
import Patroclus.Policy.YamlEngine

/-!
# The meaning of a pattern

The branches of `match_pattern` come down to one rule: a pattern that ends in a star is the
stem before it, and any other pattern is a text to be equal to. So patterns are prefix
patterns, and whether one covers another can be read off their texts.
-/

namespace Patroclus

open Foundation

/-- What a pattern stands for. -/
def readPattern (pattern : String) : PrefixPattern Char :=
  if ['*'] <:+ pattern.toList then .below pattern.toList.dropLast else .exact pattern.toList

/-- `match_pattern` without its special cases. -/
def matchSuffixStar (pattern value : String) : Bool :=
  if pattern = value then true
  else if ['*'] <:+ pattern.toList then
    startsWith value (String.ofList pattern.toList.dropLast)
  else false

/-- The values of one pattern are among those of another. -/
def PatternCovers (wider pattern : String) : Prop :=
  ∀ value, matchPattern pattern value = true → matchPattern wider value = true

section

variable {pattern value : String}

theorem readPattern_matches : (readPattern pattern).Matches value.toList ↔
    pattern = value ∨ ['*'] <:+ pattern.toList ∧ pattern.toList.dropLast <+: value.toList := by
  rw [readPattern, ← String.toList_inj]
  split
  · rename_i hstar
    constructor
    · intro hstem
      exact .inr ⟨hstar, hstem⟩
    · rintro (heq | ⟨-, hstem⟩)
      · exact heq ▸ List.dropLast_prefix _
      · exact hstem
  · rename_i hplain
    constructor
    · intro heq
      exact .inl heq
    · rintro (heq | ⟨hstar, -⟩)
      · exact heq
      · exact absurd hstar hplain

theorem matchPattern?_eq_readPattern : matchPattern? pattern.toList value.toList =
    some (decide ((readPattern pattern).Matches value.toList)) := by
  rw [matchPattern?_eq]
  apply congrArg some
  apply decide_eq_decide.mpr
  rw [String.toList_inj]
  exact readPattern_matches.symm

theorem matchPattern_eq_true : matchPattern pattern value = true ↔
    (readPattern pattern).Matches value.toList := by
  rw [matchPattern_iff, readPattern_matches, String.toList_inj]

theorem matchSuffixStar_eq_true : matchSuffixStar pattern value = true ↔
    (readPattern pattern).Matches value.toList := by
  rw [readPattern_matches, matchSuffixStar]
  split
  · rename_i heq
    exact iff_of_true rfl (.inl heq)
  · rename_i hne
    rw [or_iff_right hne]
    split
    · rename_i hstar
      rw [startsWith_iff, String.toList_ofList, and_iff_right hstar]
    · rename_i hplain
      exact iff_of_false Bool.false_ne_true fun h => hplain h.1

theorem readPattern_star (stem : String) : readPattern (stem ++ "*") = .below stem.toList := by
  have hchars : (stem ++ "*").toList = stem.toList ++ ['*'] := String.toList_append
  rw [readPattern, hchars, if_pos (List.suffix_append _ _), List.dropLast_concat]

theorem readPattern_plain (h : ¬ ['*'] <:+ pattern.toList) :
    readPattern pattern = .exact pattern.toList := if_neg h

theorem patternCovers_iff {wider : String} : PatternCovers wider pattern ↔
    (readPattern wider).Matches (readPattern pattern).text ∧
      ((readPattern pattern).IsOpen → (readPattern wider).IsOpen) := by
  rw [← PrefixPattern.forall_matches_iff]
  constructor
  · intro h w hw
    have hvalue := h (String.ofList w)
    rw [matchPattern_eq_true, matchPattern_eq_true, String.toList_ofList] at hvalue
    exact hvalue hw
  · intro h value hvalue
    exact matchPattern_eq_true.mpr (h value.toList (matchPattern_eq_true.mp hvalue))

end

/-- For all patterns and values: the slices never fail, a pattern matches the values equal to
it and, if it ends in a star, those that begin with what stands before that star; the special
cases change nothing; elsewhere a star is literal; and one stem's values are among another's
exactly if the other is its prefix. -/
theorem matchPattern_meaning (pattern value stem stem' : String) :
    matchPattern? pattern.toList value.toList = some (decide (pattern = value ∨
      ['*'] <:+ pattern.toList ∧ pattern.toList.dropLast <+: value.toList)) ∧
    matchPattern? pattern.toList value.toList = some (matchSuffixStar pattern value) ∧
    (¬ ['*'] <:+ pattern.toList → (matchPattern pattern value = true ↔ pattern = value)) ∧
    (matchPattern (stem ++ "*") value = true ↔ stem.toList <+: value.toList) ∧
    (PatternCovers (stem' ++ "*") (stem ++ "*") ↔ stem'.toList <+: stem.toList) := by
  refine ⟨?_, ?_, ?_, ?_, ?_⟩
  · rw [matchPattern?_eq_readPattern]
    exact congrArg some (decide_eq_decide.mpr readPattern_matches)
  · rw [matchPattern?_eq_readPattern]
    exact congrArg some (Bool.eq_iff_iff.mpr
      (decide_eq_true_iff.trans matchSuffixStar_eq_true.symm))
  · intro hplain
    rw [matchPattern_eq_true, readPattern_plain hplain, ← String.toList_inj]
    rfl
  · rw [matchPattern_eq_true, readPattern_star]
    rfl
  · have hcovers : PatternCovers (stem' ++ "*") (stem ++ "*") ↔
        (readPattern (stem' ++ "*")).Matches (readPattern (stem ++ "*")).text ∧
          ((readPattern (stem ++ "*")).IsOpen → (readPattern (stem' ++ "*")).IsOpen) :=
      patternCovers_iff
    rw [readPattern_star, readPattern_star] at hcovers
    exact hcovers.trans (and_iff_left fun _ => trivial)

end Patroclus
