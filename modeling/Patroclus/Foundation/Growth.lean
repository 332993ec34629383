import Mathlib.Data.List.Forall2

/-!
# Lists that only grow

`Grows keeps rows rows'` says that `rows'` is `rows` with further elements behind
it, where each old element has become one that `keeps` relates it to. A list of
this kind loses nothing, keeps its order, and lets every element change only as
`keeps` allows. For equality, it is the prefix order.
-/

namespace Foundation

variable {α : Type*}

/-- `rows` and its elements' later versions, with further elements behind them. -/
def Grows (keeps : α → α → Prop) (rows rows' : List α) : Prop :=
  ∃ kept added, rows' = kept ++ added ∧ List.Forall₂ keeps rows kept

namespace Grows

variable {keeps : α → α → Prop} {rows rows' rows'' : List α}

theorem refl (h : ∀ row, keeps row row) (rows : List α) : Grows keeps rows rows :=
  ⟨rows, [], (List.append_nil rows).symm, List.forall₂_same.mpr fun row _ => h row⟩

theorem append (h : ∀ row, keeps row row) (rows added : List α) :
    Grows keeps rows (rows ++ added) :=
  ⟨rows, added, rfl, List.forall₂_same.mpr fun row _ => h row⟩

/-- An update of elements in place. -/
theorem map {f : α → α} (h : ∀ row ∈ rows, keeps row (f row)) : Grows keeps rows (rows.map f) :=
  ⟨rows.map f, [], (List.append_nil _).symm, List.forall₂_map_right_iff.mpr
    (List.forall₂_same.mpr h)⟩

theorem trans (htrans : ∀ a b c, keeps a b → keeps b c → keeps a c) (h : Grows keeps rows rows')
    (h' : Grows keeps rows' rows'') : Grows keeps rows rows'' := by
  obtain ⟨kept, added, rfl, hkept⟩ := h
  obtain ⟨kept', added', rfl, hkept'⟩ := h'
  -- The elements of `kept` come first in `kept'`.
  obtain ⟨first, last, rfl, hfirst⟩ : ∃ first last, kept' = first ++ last ∧
      List.Forall₂ keeps kept first := by
    refine ⟨_, _, (List.take_append_drop kept.length kept').symm, ?_⟩
    simpa using List.forall₂_take kept.length hkept'
  refine ⟨first, last ++ added', List.append_assoc first last added', ?_⟩
  clear hkept'
  induction hkept generalizing first with
  | nil =>
      cases hfirst
      exact .nil
  | cons hrow _ ih =>
      cases hfirst with
      | cons hrow' hrest => exact .cons (htrans _ _ _ hrow hrow') (ih _ hrest)

theorem mono {keeps' : α → α → Prop} (h : Grows keeps rows rows')
    (imp : ∀ a b, keeps a b → keeps' a b) : Grows keeps' rows rows' := by
  obtain ⟨kept, added, heq, hkept⟩ := h
  exact ⟨kept, added, heq, hkept.imp imp⟩

theorem eq_iff : Grows (· = ·) rows rows' ↔ rows <+: rows' := by
  constructor
  · rintro ⟨kept, added, rfl, hkept⟩
    rw [List.forall₂_eq_eq_eq] at hkept
    rw [hkept]
    exact List.prefix_append kept added
  · rintro ⟨added, rfl⟩
    exact append (fun _ => rfl) rows added

/-- Every element has a later version at its own place. -/
theorem getElem? (h : Grows keeps rows rows') {i : Nat} {row : α} (hrow : rows[i]? = some row) :
    ∃ row', rows'[i]? = some row' ∧ keeps row row' := by
  obtain ⟨kept, added, rfl, hkept⟩ := h
  induction hkept generalizing i with
  | nil => cases hrow
  | cons hhead _ ih =>
      cases i with
      | zero =>
          cases hrow
          exact ⟨_, rfl, hhead⟩
      | succ i => exact ih hrow

theorem mem (h : Grows keeps rows rows') {row : α} (hrow : row ∈ rows) :
    ∃ row' ∈ rows', keeps row row' := by
  obtain ⟨i, hi⟩ := List.mem_iff_getElem?.mp hrow
  obtain ⟨row', hrow', hkeeps⟩ := h.getElem? hi
  exact ⟨row', List.mem_of_getElem? hrow', hkeeps⟩

/-- A feature that no version changes is a prefix. -/
theorem map_prefix {γ : Type*} {feature : α → γ} (h : Grows keeps rows rows')
    (same : ∀ a b, keeps a b → feature a = feature b) :
    rows.map feature <+: rows'.map feature := by
  obtain ⟨kept, added, rfl, hkept⟩ := h
  rw [List.map_append]
  have heq : rows.map feature = kept.map feature := by
    induction hkept with
    | nil => rfl
    | cons hhead _ ih => rw [List.map_cons, List.map_cons, same _ _ hhead, ih]
  rw [heq]
  exact List.prefix_append _ _

end Grows

end Foundation
