import Mathlib.Data.List.Basic

/-!
# Paths and templates

A path is a sequence that a separator divides into segments. To ask whether it lies below
a base, as the base itself or continued by a separator, is to ask whether the segments of
the base are its first segments.

A template has fixed segments and parameters. It matches the paths with as many segments
that agree with it at the fixed ones. Where its first segments are fixed, it lies below
the same bases as the paths that it matches.
-/

namespace Foundation

theorem intercalate_append {α : Type*} {glue : List α} {pieces more : List (List α)}
    (hpieces : pieces ≠ []) (hmore : more ≠ []) : glue.intercalate (pieces ++ more) =
      glue.intercalate pieces ++ (glue ++ glue.intercalate more) := by
  induction pieces with
  | nil => exact absurd rfl hpieces
  | cons piece pieces ih =>
      cases pieces with
      | nil => simp [List.intercalate_cons_of_ne_nil hmore]
      | cons next pieces =>
          rw [List.cons_append, List.cons_append, List.intercalate_cons_cons, ← List.cons_append,
            ih (List.cons_ne_nil _ _), List.intercalate_cons_cons]
          simp only [List.append_assoc]

section

variable {α : Type*} [DecidableEq α] {sep : α} {base path : List α}

/-- A path is a base, or continues it by a separator. -/
def Below (sep : α) (base path : List α) : Prop := path = base ∨ base ++ [sep] <+: path

theorem below_iff : Below sep base path ↔ base.splitOn sep <+: path.splitOn sep := by
  constructor
  · rintro (rfl | ⟨rest, rfl⟩)
    · exact List.prefix_rfl
    · rw [List.append_assoc, List.singleton_append, List.splitOn_append_cons_self]
      exact List.prefix_append _ _
  · rintro ⟨more, hmore⟩
    have hpath : path = [sep].intercalate (base.splitOn sep ++ more) := by
      rw [hmore, List.intercalate_splitOn]
    by_cases hnil : more = []
    · rw [hnil, List.append_nil, List.intercalate_splitOn] at hpath
      exact .inl hpath
    · rw [intercalate_append (List.splitOn_ne_nil _ _) hnil, List.intercalate_splitOn] at hpath
      exact .inr ⟨[sep].intercalate more, by rw [hpath, List.append_assoc]⟩

end

/-- A segment of a template. A parameter keeps the text that stands for it. -/
inductive Segment (α : Type*) where
  | fixed (text : α)
  | parameter (text : α)

namespace Segment

variable {α : Type*} [DecidableEq α]

def text : Segment α → α
  | fixed text | parameter text => text

def isFixed : Segment α → Bool
  | fixed _ => true
  | parameter _ => false

/-- The segment of a path in which the parameters have the given values. -/
def fill (value : α → α) : Segment α → α
  | fixed text => text
  | parameter text => value text

/-- The segments of a path at which a segment of a template can stand. A parameter stands
at those that are allowed. -/
def accepts (allowed : α → Bool) : Segment α → α → Bool
  | fixed text, segment => text = segment
  | parameter _, segment => allowed segment

/-- Two segments stand at no common one. -/
def excludes : Segment α → Segment α → Bool
  | fixed text, fixed text' => text ≠ text'
  | _, _ => false

/-- A template matches a path. -/
def matchAll (allowed : α → Bool) : List (Segment α) → List α → Bool
  | [], [] => true
  | segment :: template, x :: path => segment.accepts allowed x && matchAll allowed template path
  | _, _ => false

/-- Two templates differ in length, or in segments that exclude each other. -/
def apart : List (Segment α) → List (Segment α) → Bool
  | [], [] => false
  | segment :: template, segment' :: template' =>
      segment.excludes segment' || apart template template'
  | _, _ => true

variable {allowed : α → Bool} {template template' : List (Segment α)} {base path : List α}
  {segment segment' : Segment α} {x : α}

theorem not_accepts_of_excludes (h : segment.excludes segment')
    (accepted : segment.accepts allowed x) : segment'.accepts allowed x = false := by
  cases segment with
  | parameter text => cases h
  | fixed text =>
      cases segment' with
      | parameter text' => cases h
      | fixed text' =>
          simp only [accepts, excludes, decide_eq_true_eq] at *
          subst accepted
          exact decide_eq_false (Ne.symm h)

theorem accepts_of_isFixed (fixed : segment.isFixed) (accepted : segment.accepts allowed x) :
    segment.text = x := by
  cases segment with
  | fixed text => exact of_decide_eq_true accepted
  | parameter text => cases fixed

theorem accepts_fill {value : α → α} (h : segment.isFixed = false → allowed (value segment.text)) :
    segment.accepts allowed (segment.fill value) := by
  cases segment with
  | fixed text => exact decide_eq_true rfl
  | parameter text => exact h rfl

theorem matchAll_fill {value : α → α}
    (h : ∀ segment ∈ template, segment.isFixed = false → allowed (value segment.text)) :
    matchAll allowed template (template.map (fill value)) := by
  induction template with
  | nil => rfl
  | cons segment template ih =>
      have hhead := accepts_fill (h segment List.mem_cons_self)
      have htail := ih fun next hnext => h next (List.mem_cons_of_mem _ hnext)
      rw [List.map_cons, matchAll, hhead, htail, Bool.and_self]

/-- No path matches two templates that are apart. -/
theorem not_matchAll_of_apart (h : apart template template')
    (matched : matchAll allowed template path) : matchAll allowed template' path = false := by
  induction template generalizing template' path with
  | nil =>
      cases path with
      | nil =>
          cases template' with
          | nil => cases h
          | cons segment' template' => rfl
      | cons x path => cases matched
  | cons segment template ih =>
      cases path with
      | nil => cases matched
      | cons x path =>
          cases template' with
          | nil => rfl
          | cons segment' template' =>
              simp only [matchAll, apart, Bool.and_eq_true, Bool.or_eq_true] at *
              obtain ⟨haccepts, hrest⟩ := matched
              obtain h | h := h
              · rw [not_accepts_of_excludes h haccepts, Bool.false_and]
              · rw [ih h hrest, Bool.and_false]

/-- Fixed segments at the beginning are those of every path that matches. -/
theorem take_of_matchAll {n : Nat} (matched : matchAll allowed template path)
    (fixed : ∀ segment ∈ template.take n, segment.isFixed) :
    path.take n = (template.map text).take n := by
  induction template generalizing path n with
  | nil =>
      cases path with
      | nil => rfl
      | cons x path => cases matched
  | cons segment template ih =>
      cases path with
      | nil => cases matched
      | cons x path =>
          cases n with
          | zero => rfl
          | succ n =>
              rw [matchAll, Bool.and_eq_true] at matched
              obtain ⟨haccepts, hrest⟩ := matched
              rw [List.take_succ_cons] at fixed
              have hhead := accepts_of_isFixed (fixed segment List.mem_cons_self) haccepts
              have htail := ih hrest fun next hnext => fixed next (List.mem_cons_of_mem _ hnext)
              rw [List.map_cons, List.take_succ_cons, List.take_succ_cons, hhead, htail]

/-- Below the fixed segments, a template and the paths that it matches are below the same
bases. -/
theorem prefix_iff_of_matchAll (matched : matchAll allowed template path)
    (fixed : ∀ segment ∈ template.take base.length, segment.isFixed) :
    base <+: path ↔ base <+: template.map text := by
  rw [List.prefix_iff_eq_take, List.prefix_iff_eq_take, take_of_matchAll matched fixed]

end Segment

end Foundation
