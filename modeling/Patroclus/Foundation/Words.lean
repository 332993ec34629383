import Mathlib.Data.List.Basic

/-!
# Words of a text

The words of a sequence are its maximal nonempty pieces without a separator.
Joining a list of pieces with one separator and reading the words back yields
the words of the pieces, in order; it yields the pieces themselves exactly when
every piece is a word. A piece that contains a separator comes back as several.

The string versions are the same statements through `String.toList`.
-/

namespace Foundation

variable {α : Type*} {sep : α → Bool} {xs ys : List α} {c : α}

/-- The maximal nonempty separator-free pieces, in order. -/
def words (sep : α → Bool) (xs : List α) : List (List α) :=
  (xs.splitOnP sep).filter fun piece => !piece.isEmpty

/-- A nonempty sequence without separators. -/
def IsWord (sep : α → Bool) (xs : List α) : Prop := xs ≠ [] ∧ ∀ x ∈ xs, sep x = false

@[simp] theorem words_nil : words sep [] = [] := rfl

theorem words_append_cons (xs ys : List α) (hsep : sep c = true) :
    words sep (xs ++ c :: ys) = words sep xs ++ words sep ys := by
  simp only [words, List.splitOnP_append_cons xs ys hsep, List.filter_append]

theorem words_of_isWord (h : IsWord sep xs) : words sep xs = [xs] := by
  simp [words, List.splitOnP_eq_singleton h.2, h.1]

/-- No piece contains a separator. -/
theorem separatorFree_of_mem_splitOnP {piece : List α} (h : piece ∈ xs.splitOnP sep) :
    ∀ x ∈ piece, sep x = false := by
  induction xs generalizing piece with
  | nil => simp_all
  | cons x xs ih =>
      rw [List.splitOnP_cons_eq_if_modifyHead] at h
      split at h
      · obtain rfl | h := List.mem_cons.mp h
        · simp
        · exact ih h
      · rename_i hx
        obtain ⟨first, rest, hsplit⟩ := List.exists_cons_of_ne_nil (List.splitOnP_ne_nil sep xs)
        rw [hsplit, List.modifyHead_cons] at h
        obtain rfl | h := List.mem_cons.mp h
        · intro y hy
          obtain rfl | hy := List.mem_cons.mp hy
          · simpa using hx
          · exact ih (by simp [hsplit]) y hy
        · exact ih (by simp [hsplit, h])

theorem isWord_of_mem_words {piece : List α} (h : piece ∈ words sep xs) : IsWord sep piece := by
  obtain ⟨hmem, hne⟩ := List.mem_filter.mp h
  exact ⟨by simpa using hne, separatorFree_of_mem_splitOnP hmem⟩

theorem words_intercalate (hsep : sep c = true) (pieces : List (List α)) :
    words sep ([c].intercalate pieces) = pieces.flatMap (words sep) := by
  induction pieces with
  | nil => simp
  | cons piece rest ih =>
      cases rest with
      | nil => simp
      | cons next rest =>
          rw [List.intercalate_cons_of_ne_nil (by simp), List.append_assoc, List.singleton_append,
            words_append_cons _ _ hsep, ih]
          simp only [List.flatMap_cons]

/-- Reading words back inverts joining exactly on lists of words. -/
theorem words_intercalate_eq_iff (hsep : sep c = true) (pieces : List (List α)) :
    words sep ([c].intercalate pieces) = pieces ↔ ∀ piece ∈ pieces, IsWord sep piece := by
  rw [words_intercalate hsep]
  constructor
  · intro h piece hmem
    rw [← h] at hmem
    obtain ⟨source, _, hword⟩ := List.mem_flatMap.mp hmem
    exact isWord_of_mem_words hword
  · intro h
    induction pieces with
    | nil => rfl
    | cons piece rest ih =>
        rw [List.flatMap_cons, words_of_isWord (h piece (by simp)),
          ih fun next hnext => h next (by simp [hnext]), List.singleton_append]

/-! ## Strings -/

section Strings

variable {sep : Char → Bool} {s : String}

/-- The words of a string. -/
def stringWords (sep : Char → Bool) (s : String) : List String :=
  (words sep s.toList).map String.ofList

/-- A nonempty string without separators. -/
def IsStringWord (sep : Char → Bool) (s : String) : Prop := IsWord sep s.toList

instance (sep : Char → Bool) (s : String) : Decidable (IsStringWord sep s) :=
  inferInstanceAs (Decidable (_ ∧ _))

theorem isStringWord_of_mem_stringWords {piece : String} (h : piece ∈ stringWords sep s) :
    IsStringWord sep piece := by
  obtain ⟨chars, hmem, rfl⟩ := List.mem_map.mp h
  simpa [IsStringWord] using isWord_of_mem_words hmem

theorem stringWords_intercalate (hsep : sep ' ' = true) (pieces : List String) :
    stringWords sep (" ".intercalate pieces) = pieces.flatMap (stringWords sep) := by
  have hspace : (" " : String).toList = [' '] := by decide
  rw [stringWords, String.toList_intercalate, hspace, words_intercalate hsep, List.flatMap_map,
    List.map_flatMap]
  rfl

theorem stringWords_intercalate_eq_iff (hsep : sep ' ' = true) (pieces : List String) :
    stringWords sep (" ".intercalate pieces) = pieces ↔
      ∀ piece ∈ pieces, IsStringWord sep piece := by
  have hspace : (" " : String).toList = [' '] := by decide
  rw [stringWords, String.toList_intercalate, hspace]
  constructor
  · intro h piece hmem
    rw [← h] at hmem
    obtain ⟨chars, hchars, rfl⟩ := List.mem_map.mp hmem
    simpa [IsStringWord] using isWord_of_mem_words hchars
  · intro h
    have hwords := (words_intercalate_eq_iff hsep (pieces.map String.toList)).mpr (by
      simpa [IsStringWord] using h)
    simp [hwords]

end Strings

end Foundation
