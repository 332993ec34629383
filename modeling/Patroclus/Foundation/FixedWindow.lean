import Mathlib.Order.Lattice
import Mathlib.Order.Monotone.Defs
import Mathlib.Data.List.Chain
import Mathlib.Data.List.TakeWhile

/-!
# Fixed windows

A counter that admits calls by windows. A window starts with a call and lasts until its
deadline, and the first call after that starts the next one. Calls beyond the limit of a
window are counted and refused; its first call is never refused.

What is admitted are the first calls of each window. A sliding bound is stronger: no
span of time, wherever it begins, holds more than so many of them. Such a span meets
two windows at most, so the bound holds exactly if it holds for the first calls of
every two successive windows.
-/

namespace Foundation

structure Window (T : Type*) where
  start : T
  count : Nat

variable {T : Type*} [LinearOrder T] (deadline : T → T) (limit : Nat)

/-- What a window says to a call, and the window afterwards. -/
def Window.answer (now : T) : Option (Window T) → Bool × Window T
  | some w =>
      if deadline w.start < now then (true, ⟨now, 1⟩)
      else (decide (w.count + 1 ≤ limit), ⟨w.start, w.count + 1⟩)
  | none => (true, ⟨now, 1⟩)

/-- The window after a call, which is counted whether or not it is admitted. -/
def Window.push (now : T) (w : Option (Window T)) : Window T := (Window.answer deadline 0 now w).2

theorem Window.answer_snd {deadline : T → T} {limit : Nat} {now : T} {w : Option (Window T)} :
    (Window.answer deadline limit now w).2 = Window.push deadline now w := by
  cases w with
  | none => rfl
  | some w =>
      rw [push, answer, answer]
      split
      · rfl
      · rfl

/-- The calls that are admitted, by the times of their arrival. -/
def admitted : Option (Window T) → List T → List T
  | _, [] => []
  | w, now :: rest =>
      let (granted, next) := Window.answer deadline limit now w
      if granted then now :: admitted (some next) rest else admitted (some next) rest

/-- Arrivals by their windows. -/
def windows : List T → List (List T)
  | [] => []
  | start :: rest =>
      (start :: rest.takeWhile (· ≤ deadline start)) ::
        windows (rest.dropWhile (· ≤ deadline start))
termination_by arrivals => arrivals.length
decreasing_by exact Nat.lt_succ_of_le (List.length_dropWhile_le _ _)

/-- No span from a time to its deadline holds more than `limit` of the times. -/
def Slides (times : List T) : Prop :=
  ∀ x, times.countP (fun t => decide (x ≤ t ∧ t ≤ deadline x)) ≤ limit

section

variable {deadline limit} {start : T} {count : Nat} {times times' rest : List T}

/-! ## The admitted calls -/

/-- A window that has room for some calls admits the next ones until its deadline. -/
theorem admitted_some : admitted deadline limit (some ⟨start, count⟩) times =
    (times.takeWhile (· ≤ deadline start)).take (limit - count) ++
      admitted deadline limit none (times.dropWhile (· ≤ deadline start)) := by
  induction times generalizing count with
  | nil => simp [admitted]
  | cons now rest ih =>
      by_cases hover : deadline start < now
      · have hnot : ¬ now ≤ deadline start := not_le.mpr hover
        simp [admitted, Window.answer, hover, hnot]
      · have hle : now ≤ deadline start := not_lt.mp hover
        have hcounted : admitted deadline limit (some ⟨start, count⟩) (now :: rest) =
            if count + 1 ≤ limit then
              now :: admitted deadline limit (some ⟨start, count + 1⟩) rest
            else admitted deadline limit (some ⟨start, count + 1⟩) rest := by
          simp [admitted, Window.answer, hover]
        rw [hcounted, ih, List.takeWhile_cons_of_pos (by simpa using hle),
          List.dropWhile_cons_of_pos (by simpa using hle)]
        split
        · rename_i hroom
          obtain ⟨room, hroom⟩ : ∃ room, limit - count = room + 1 := ⟨limit - count - 1, by omega⟩
          have hrest : limit - (count + 1) = room := by omega
          rw [hroom, hrest, List.take_succ_cons, List.cons_append]
        · rename_i hfull
          have hroom : limit - count = 0 := by omega
          have hrest : limit - (count + 1) = 0 := by omega
          rw [hroom, hrest]
          rfl

/-- What is admitted are the first calls of each window. -/
theorem admitted_none : admitted deadline limit none times =
    (windows deadline times).flatMap (List.take (max limit 1)) := by
  fun_induction windows deadline times with
  | case1 => rfl
  | case2 start rest ih =>
      obtain ⟨room, hroom⟩ : ∃ room, max limit 1 = room + 1 := ⟨max limit 1 - 1, by omega⟩
      have hrest : limit - 1 = room := by omega
      have hfirst : admitted deadline limit none (start :: rest) =
          start :: admitted deadline limit (some ⟨start, 1⟩) rest := rfl
      rw [hfirst, admitted_some, ih, List.flatMap_cons, hroom, hrest, List.take_succ_cons,
        List.cons_append]

theorem flatten_windows : (windows deadline times).flatten = times := by
  fun_induction windows deadline times with
  | case1 => rfl
  | case2 start rest ih =>
      rw [List.flatten_cons, ih, List.cons_append, List.takeWhile_append_dropWhile]

theorem mem_of_mem_flatMap_take {t : T}
    (h : t ∈ (windows deadline times).flatMap (List.take limit)) : t ∈ times := by
  obtain ⟨w, hw, ht⟩ := List.mem_flatMap.mp h
  have hflatten : (windows deadline times).flatten = times := flatten_windows
  rw [← hflatten]
  exact List.mem_flatten.mpr ⟨w, hw, List.mem_of_mem_take ht⟩

/-! ## The sliding bound -/

theorem Slides.of_sublist (h : Slides deadline limit times) (sub : times'.Sublist times) :
    Slides deadline limit times' := fun x => sub.countP_le.trans (h x)

/-- The arrivals after a window come after its deadline. -/
theorem deadline_lt_of_mem_dropWhile {t : T} (sorted : rest.Pairwise (· ≤ ·))
    (h : t ∈ rest.dropWhile (· ≤ deadline start)) : deadline start < t := by
  induction rest with
  | nil => cases h
  | cons now rest ih =>
      obtain ⟨hnow, hsorted⟩ := List.pairwise_cons.mp sorted
      by_cases hle : now ≤ deadline start
      · rw [List.dropWhile_cons_of_pos (by simpa using hle)] at h
        exact ih hsorted h
      · rw [List.dropWhile_cons_of_neg (by simpa using hle)] at h
        rcases List.mem_cons.mp h with rfl | hrest
        · exact not_le.mp hle
        · exact (not_le.mp hle).trans_le (hnow t hrest)

/-- A span that holds a call of a window holds none of the window after the next. -/
theorem countP_eq_zero_after {t x : T} (mono : Monotone deadline)
    (sorted : (start :: rest).Pairwise (· ≤ ·)) (before : t ≤ start) (within : x ≤ t) :
    ((windows deadline (rest.dropWhile (· ≤ deadline start))).flatMap (List.take limit)).countP
      (fun t => decide (x ≤ t ∧ t ≤ deadline x)) = 0 := by
  rw [List.countP_eq_zero]
  intro u hu
  have hlate := deadline_lt_of_mem_dropWhile (List.pairwise_cons.mp sorted).2
    (mem_of_mem_flatMap_take hu)
  have hspan : deadline x ≤ deadline start := mono (within.trans before)
  simpa using fun _ => hspan.trans_lt hlate

theorem slides_of_isChain (mono : Monotone deadline) (sorted : times.Pairwise (· ≤ ·))
    (h : (windows deadline times).IsChain fun w w' =>
      Slides deadline limit (w.take limit ++ w'.take limit)) :
    Slides deadline limit ((windows deadline times).flatMap (List.take limit)) := by
  fun_induction windows deadline times with
  | case1 => exact fun _ => Nat.zero_le _
  | case2 start rest ih =>
      obtain ⟨hstart, hrest⟩ := List.pairwise_cons.mp sorted
      have hlater := hrest.sublist (List.dropWhile_sublist (· ≤ deadline start))
      intro x
      rw [List.flatMap_cons, List.countP_append]
      by_cases hmeets : ∃ t ∈ (start :: rest.takeWhile (· ≤ deadline start)).take limit,
          x ≤ t ∧ t ≤ deadline x
      · obtain ⟨t, ht, hx, -⟩ := hmeets
        have hbefore : ∀ next ∈ rest.dropWhile (· ≤ deadline start), t ≤ next := by
          intro next hnext
          rcases List.mem_cons.mp (List.mem_of_mem_take ht) with rfl | hinside
          · exact hstart next ((List.dropWhile_sublist _).subset hnext)
          · have hearly : t ≤ deadline start := by simpa using List.mem_takeWhile_imp hinside
            exact hearly.trans (deadline_lt_of_mem_dropWhile hrest hnext).le
        generalize rest.dropWhile (· ≤ deadline start) = outside at h ih hlater hbefore ⊢
        cases outside with
        | nil =>
            rw [windows, List.flatMap_nil, List.countP_nil, Nat.add_zero]
            exact List.countP_le_length.trans (List.length_take_le _ _)
        | cons next rest' =>
            rw [windows] at h ⊢
            have hpair := h.rel x
            rw [List.countP_append] at hpair
            rw [List.flatMap_cons, List.countP_append,
              countP_eq_zero_after mono hlater (hbefore next List.mem_cons_self) hx, Nat.add_zero]
            exact hpair
      · have hnone : ((start :: rest.takeWhile (· ≤ deadline start)).take limit).countP
            (fun t => decide (x ≤ t ∧ t ≤ deadline x)) = 0 := by
          rw [List.countP_eq_zero]
          intro t ht hspan
          exact hmeets ⟨t, ht, of_decide_eq_true hspan⟩
        rw [hnone, Nat.zero_add]
        exact ih hlater h.of_cons x

/-- The first calls of the windows keep the sliding bound exactly if those of every two
successive windows do. -/
theorem slides_iff_isChain (mono : Monotone deadline) (sorted : times.Pairwise (· ≤ ·)) :
    Slides deadline limit ((windows deadline times).flatMap (List.take limit)) ↔
      (windows deadline times).IsChain fun w w' =>
        Slides deadline limit (w.take limit ++ w'.take limit) := by
  refine ⟨fun h => ?_, slides_of_isChain mono sorted⟩
  rw [List.isChain_iff_forall_rel_of_append_cons_cons]
  rintro w w' before after hsplit
  apply h.of_sublist
  rw [hsplit, List.flatMap_append, List.flatMap_cons, List.flatMap_cons]
  exact ((List.sublist_append_left _ _).append_left _).trans (List.sublist_append_right _ _)

/-- What is admitted keeps the sliding bound exactly if there is no call, or the limit is
not zero and the first calls of every two successive windows keep the bound. -/
theorem slides_admitted_iff (mono : Monotone deadline) (later : ∀ x, x ≤ deadline x)
    (sorted : times.Pairwise (· ≤ ·)) :
    Slides deadline limit (admitted deadline limit none times) ↔ times = [] ∨ 0 < limit ∧
      (windows deadline times).IsChain fun w w' =>
        Slides deadline limit (w.take limit ++ w'.take limit) := by
  obtain rfl | hpos := Nat.eq_zero_or_pos limit
  · cases times with
    | nil => exact iff_of_true (fun _ => Nat.zero_le _) (.inl rfl)
    | cons now rest =>
        refine iff_of_false (fun h => ?_) (by simp)
        -- The first call is admitted, whatever the limit.
        have hnone := Nat.le_zero.mp (h now)
        rw [List.countP_eq_zero] at hnone
        have hmem : now ∈ admitted deadline 0 none (now :: rest) := List.mem_cons_self
        exact hnone now hmem (by simpa using later now)
  · rw [admitted_none, max_eq_left (Nat.succ_le_of_lt hpos), slides_iff_isChain mono sorted]
    cases times with
    | nil => simp [windows]
    | cons now rest => simp [hpos]

end

end Foundation
