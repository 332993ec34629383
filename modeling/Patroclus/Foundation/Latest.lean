import Mathlib.Data.List.DropRight
import Mathlib.Data.List.Nodup

/-!
# The latest of several writes

A list of writes to keys, in their order. A key holds what was written to it last; where
no value is written twice, a value is held by one key at most, and by none once its key
has been written again. A log that keeps only its latest entries keeps those of the whole.
-/

namespace Foundation

variable {κ ν : Type*} [DecidableEq κ] {writes : List (κ × ν)} {k k' : κ} {v : ν}

/-- What was written to a key last. -/
def latest (k : κ) (writes : List (κ × ν)) : Option ν :=
  (writes.reverse.find? fun write => write.1 = k).map (·.2)

@[simp] theorem latest_nil : latest k ([] : List (κ × ν)) = none := rfl

theorem latest_concat : latest k (writes ++ [(k', v)]) =
    if k' = k then some v else latest k writes := by
  rw [latest, List.reverse_append, List.reverse_singleton, List.singleton_append, List.find?_cons]
  by_cases h : k' = k
  · simp [h]
  · simp [h, latest]

theorem mem_of_latest (h : latest k writes = some v) : (k, v) ∈ writes := by
  obtain ⟨⟨k', v'⟩, hfind, rfl⟩ := Option.map_eq_some_iff.mp h
  have hmem := List.mem_reverse.mp (List.mem_of_find?_eq_some hfind)
  have hkey : k' = k := by simpa using List.find?_some hfind
  rwa [hkey] at hmem

theorem latest_eq_getLast? : latest k writes =
    ((writes.filter fun write => write.1 = k).getLast?).map (·.2) := by
  rw [latest, ← List.head?_filter, List.filter_reverse, List.head?_reverse]

theorem latest_isSome_iff : (latest k writes).isSome ↔ k ∈ writes.map (·.1) := by
  rw [latest, Option.isSome_map, List.find?_isSome]
  simp only [List.mem_reverse, List.mem_map, decide_eq_true_eq]

/-- Writes to other keys may be left out. -/
theorem latest_filter {keep : κ → Bool} (h : keep k = true) :
    latest k (writes.filter fun write => keep write.1) = latest k writes := by
  rw [latest, ← List.filter_reverse, List.find?_filter, latest]
  congr 2
  funext write
  by_cases hkey : write.1 = k
  · simp [hkey, h]
  · simp [hkey]

/-- Nothing is held by a key whose writes are left out. -/
theorem latest_filter_eq_none {keep : κ → Bool} (h : ¬ keep k = true) :
    latest k (writes.filter fun write => keep write.1) = none := by
  cases hlatest : latest k (writes.filter fun write => keep write.1) with
  | none => rfl
  | some v => exact absurd (List.mem_filter.mp (mem_of_latest hlatest)).2 h

/-- Where no value is written twice, a value is held by no key but the one it was written to. -/
theorem eq_of_latest (distinct : (writes.map (·.2)).Nodup) (mem : (k, v) ∈ writes)
    (h : latest k' writes = some v) : k' = k :=
  congrArg Prod.fst (List.inj_on_of_nodup_map distinct (mem_of_latest h) mem rfl)

/-- Of the latest `n` and some more, the latest `n` are those of the whole list. -/
theorem rtake_rtake_append {α : Type*} (n : Nat) (xs ys : List α) :
    (xs.rtake n ++ ys).rtake n = (xs ++ ys).rtake n := by
  have hdropped : xs.length - n ≤ xs.length := Nat.sub_le _ _
  rw [List.rtake, List.rtake, List.rtake, ← List.drop_append_of_le_length hdropped, List.drop_drop]
  congr 1
  rw [List.length_drop, List.length_append]
  omega

theorem rtake_rtake_concat {α : Type*} (n : Nat) (xs : List α) (x : α) :
    (xs.rtake n ++ [x]).rtake n = (xs ++ [x]).rtake n :=
  rtake_rtake_append n xs [x]

theorem mem_of_mem_rtake {α : Type*} {n : Nat} {xs : List α} {x : α} (h : x ∈ xs.rtake n) :
    x ∈ xs :=
  List.mem_of_mem_drop h

theorem mem_rtake_concat {α : Type*} {n : Nat} (pos : 0 < n) (xs : List α) (x : α) :
    x ∈ (xs ++ [x]).rtake n := by
  obtain ⟨m, rfl⟩ := Nat.exists_eq_succ_of_ne_zero pos.ne'
  rw [List.rtake_concat_succ]
  exact List.mem_append_right _ List.mem_cons_self

theorem map_rtake {α β : Type*} (f : α → β) (n : Nat) (xs : List α) :
    (xs.rtake n).map f = (xs.map f).rtake n := by
  rw [List.rtake, List.rtake, List.map_drop, List.length_map]

end Foundation
