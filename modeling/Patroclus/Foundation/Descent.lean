import Mathlib.Data.List.Basic
import Mathlib.Data.List.Forall2
import Mathlib.Data.List.Nodup
import Mathlib.Logic.Relation
import Patroclus.Foundation.Sweep

/-!
# Marks that are handed down

The rows of a table name their parents, and some rows are marked. Marks are handed down if
every row with a marked ancestor is marked. A cascade marks the rows under one id and seals
whatever it settles: no row is left unmarked below an id whose rows it has marked. A
cascade keeps marks handed down, and a sweep of the unmarked rows is a cascade.
-/

namespace Foundation

/-- How rows of a table name themselves and their parents, and which of them are marked. -/
structure Descent (ρ κ : Type*) where
  id : ρ → κ
  parent : ρ → Option κ
  marked : ρ → Bool

namespace Descent

variable {ρ κ : Type*} (d : Descent ρ κ)

def ParentOf (rows : List ρ) (a b : ρ) : Prop := a ∈ rows ∧ b ∈ rows ∧ d.parent b = some (d.id a)

/-- Every row with a marked ancestor, at any depth, is marked. -/
def HandedDown (rows : List ρ) : Prop :=
  ∀ a b, Relation.TransGen (d.ParentOf rows) a b → d.marked a = true → d.marked b = true

/-- The children of an id are marked. -/
def Sealed (rows : List ρ) (i : κ) : Prop := ∀ b ∈ rows, d.parent b = some i → d.marked b = true

/-- There are rows with this id, and they are marked. -/
def Settled (rows : List ρ) (i : κ) : Prop :=
  (∃ a ∈ rows, d.id a = i) ∧ ∀ a ∈ rows, d.id a = i → d.marked a = true

/-- Row by row, the names are the same, and a marked row remains marked. -/
def Advances (rows rows' : List ρ) : Prop :=
  List.Forall₂ (fun a a' => d.id a' = d.id a ∧ d.parent a' = d.parent a ∧
    (d.marked a = true → d.marked a' = true)) rows rows'

/-- The rows of an id are marked, and every id that is settled by it is sealed. -/
structure Cascades (i : κ) (rows rows' : List ρ) : Prop where
  advances : d.Advances rows rows'
  marks : ∀ a ∈ rows', d.id a = i → d.marked a = true
  seals : d.Sealed rows' i
  settles : ∀ j, d.Settled rows' j → d.Settled rows j ∨ d.Sealed rows' j

section

variable [DecidableEq κ] (rows : List ρ)

/-- The ids of the rows that name a parent. -/
def children (k : κ) : List κ := (rows.filter fun a => decide (d.parent a = some k)).map d.id

/-- The ids of the rows that are not marked. -/
def opens : Finset κ := ((rows.filter fun a => !d.marked a).map d.id).toFinset

end

variable {d} {rows rows' rows'' : List ρ} {i j : κ}

/-- It is enough that marks are handed down to children. -/
theorem handedDown_iff : d.HandedDown rows ↔
    ∀ a ∈ rows, d.marked a = true → d.Sealed rows (d.id a) := by
  constructor
  · intro h a ha hmarked b hb hparent
    exact h a b (.single ⟨ha, hb, hparent⟩) hmarked
  · intro h a b hdescends hmarked
    induction hdescends with
    | single hparent => exact h a hparent.1 hmarked _ hparent.2.1 hparent.2.2
    | tail _ hparent ih => exact h _ hparent.1 ih _ hparent.2.1 hparent.2.2

instance [DecidableEq κ] : Decidable (d.Sealed rows i) := by
  unfold Sealed
  infer_instance

instance [DecidableEq κ] : Decidable (d.HandedDown rows) := decidable_of_iff _ handedDown_iff.symm

namespace Advances

/-- A row after comes from one before. -/
theorem source (h : d.Advances rows rows') {a' : ρ} (mem : a' ∈ rows') : ∃ a ∈ rows,
    d.id a' = d.id a ∧ d.parent a' = d.parent a ∧ (d.marked a = true → d.marked a' = true) := by
  induction h with
  | nil => cases mem
  | cons hrow _ ih =>
      obtain rfl | hmem := List.mem_cons.mp mem
      · exact ⟨_, List.mem_cons_self, hrow⟩
      · obtain ⟨a, ha, hsource⟩ := ih hmem
        exact ⟨a, List.mem_cons_of_mem _ ha, hsource⟩

theorem map_id (h : d.Advances rows rows') : rows'.map d.id = rows.map d.id := by
  induction h with
  | nil => rfl
  | cons hrow _ ih => rw [List.map_cons, List.map_cons, hrow.1, ih]

theorem sealed (h : d.Advances rows rows') (hsealed : d.Sealed rows i) : d.Sealed rows' i := by
  intro b' hb' hparent
  obtain ⟨b, hb, -, hsame, hmarked⟩ := h.source hb'
  exact hmarked (hsealed b hb (hsame.symm.trans hparent))

end Advances

/-- A cascade keeps marks handed down. -/
theorem Cascades.handedDown (h : d.Cascades i rows rows') (distinct : (rows.map d.id).Nodup)
    (handed : d.HandedDown rows) : d.HandedDown rows' := by
  rw [handedDown_iff] at handed ⊢
  intro a' ha' hmarked
  have hdistinct : (rows'.map d.id).Nodup := h.advances.map_id ▸ distinct
  have hsettled : d.Settled rows' (d.id a') := by
    refine ⟨⟨a', ha', rfl⟩, fun b' hb' hid => ?_⟩
    rw [List.inj_on_of_nodup_map hdistinct hb' ha' hid]
    exact hmarked
  obtain ⟨⟨a, ha, hid⟩, hmarkeds⟩ | hsealed := h.settles _ hsettled
  · rw [← hid]
    exact h.advances.sealed (handed a ha (hmarkeds a ha hid))
  · exact hsealed

/-! ## Tables as lineages -/

section

variable [DecidableEq κ] {k : κ}

theorem mem_children : j ∈ d.children rows k ↔ ∃ a ∈ rows, d.parent a = some k ∧ d.id a = j := by
  simp only [children, List.mem_map, List.mem_filter, decide_eq_true_iff, and_assoc]

theorem mem_opens : j ∈ d.opens rows ↔ ∃ a ∈ rows, d.marked a = false ∧ d.id a = j := by
  simp only [opens, List.mem_toFinset, List.mem_map, List.mem_filter, Bool.not_eq_true', and_assoc]

theorem card_opens_le (rows : List ρ) : (d.opens rows).card ≤ rows.length := by
  calc (d.opens rows).card ≤ ((rows.filter fun a => !d.marked a).map d.id).length :=
        List.toFinset_card_le _
    _ ≤ rows.length := by
        rw [List.length_map]
        exact List.length_filter_le _ rows

/-- With distinct ids, no row has two parents. -/
theorem lineage (distinct : (rows.map d.id).Nodup) : Lineage (d.children rows) where
  nodup k := (List.filter_sublist.map d.id).nodup distinct
  unique := by
    intro k k' j hk hk'
    obtain ⟨a, ha, hparent, rfl⟩ := mem_children.mp hk
    obtain ⟨b, hb, hother, hid⟩ := mem_children.mp hk'
    rw [List.inj_on_of_nodup_map distinct hb ha hid, hparent] at hother
    exact Option.some.inj hother

theorem mem_opens_iff (distinct : (rows.map d.id).Nodup) {a : ρ} (mem : a ∈ rows) :
    d.id a ∈ d.opens rows ↔ d.marked a = false := by
  rw [mem_opens]
  constructor
  · rintro ⟨b, hb, hopen, hid⟩
    rwa [← List.inj_on_of_nodup_map distinct hb mem hid]
  · intro hopen
    exact ⟨a, mem, hopen, rfl⟩

/-- The unmarked children of an id, in the order of the table. -/
theorem openChildren_eq (distinct : (rows.map d.id).Nodup) :
    Sweep.openChildren (d.children rows) (d.opens rows) k =
      (rows.filter fun a => decide (d.parent a = some k) && !d.marked a).map d.id := by
  rw [Sweep.openChildren, children, List.filter_map, List.filter_filter]
  congr 1
  refine List.filter_congr fun a ha => ?_
  have hopen : decide (d.id a ∈ d.opens rows) = !d.marked a := by
    rw [Bool.eq_iff_iff, decide_eq_true_iff, mem_opens_iff distinct ha, Bool.not_eq_true']
  rw [Function.comp_apply, hopen, Bool.and_comm]

namespace Advances

theorem children_eq (h : d.Advances rows rows') : d.children rows' = d.children rows := by
  funext k
  induction h with
  | nil => rfl
  | cons hrow _ ih =>
      simp only [children, List.filter_cons, hrow.2.1] at ih ⊢
      split
      · rw [List.map_cons, List.map_cons, hrow.1, ih]
      · exact ih

end Advances

/-- A sweep of the unmarked rows that leaves nothing open is a cascade. -/
theorem cascades_of_sweeps {clear : Prop} {ids : List κ} (h : d.Advances rows rows')
    (sweeps : Sweep.Sweeps (d.children rows) clear (d.opens rows) i (some ids) (d.opens rows'))
    (complete : clear) : d.Cascades i rows rows' := by
  have hmarked {a : ρ} (ha : a ∈ rows') (hclosed : d.id a ∉ d.opens rows') :
      d.marked a = true := by
    by_contra hopen
    exact hclosed (mem_opens.mpr ⟨a, ha, Bool.not_eq_true _ ▸ hopen, rfl⟩)
  have hseals {k : κ} (hk : k = i ∨ Sweep.Below (d.children rows) (d.opens rows) i k) :
      d.Sealed rows' k := by
    intro b hb hparent
    refine hmarked hb fun hopen => ?_
    have hleads : Sweep.Leads (d.children rows) (d.opens rows) k (d.id b) :=
      ⟨h.children_eq ▸ mem_children.mpr ⟨b, hb, hparent, rfl⟩, sweeps.subset hopen⟩
    refine (sweeps.complete_iff ids rfl).mp complete (d.id b) ?_ hopen
    obtain rfl | hbelow := hk
    · exact .single hleads
    · exact hbelow.tail hleads
  refine ⟨h, ?_, hseals (.inl rfl), ?_⟩
  · rintro a ha rfl
    exact hmarked ha (sweeps.closes ids rfl)
  · intro j ⟨⟨a', ha', hid⟩, hmarks⟩
    have hclosed : j ∉ d.opens rows' := by
      intro hopen
      obtain ⟨b, hb, hfalse, hid⟩ := mem_opens.mp hopen
      rw [hmarks b hb hid] at hfalse
      cases hfalse
    by_cases hopen : j ∈ d.opens rows
    · exact .inr (hseals (sweeps.sound j hopen hclosed))
    · obtain ⟨a, ha, hsame, -⟩ := h.source ha'
      refine .inl ⟨⟨a, ha, hsame.symm.trans hid⟩, fun b hb hid => ?_⟩
      by_contra hfalse
      exact hopen (mem_opens.mpr ⟨b, hb, Bool.not_eq_true _ ▸ hfalse, hid⟩)

end

/-! ## Adding rows -/

/-- Adding an unmarked row keeps marks handed down exactly if its parent is not marked. -/
theorem handedDown_concat_iff {a : ρ} (unmarked : d.marked a = false)
    (handed : d.HandedDown rows) :
    d.HandedDown (rows ++ [a]) ↔
      ∀ b ∈ rows, d.parent a = some (d.id b) → d.marked b = false := by
  rw [handedDown_iff] at handed ⊢
  constructor
  · intro h b hb hparent
    by_contra hmarked
    rw [Bool.not_eq_false] at hmarked
    have ha := h b (List.mem_append_left _ hb) hmarked a
      (List.mem_append_right _ (List.mem_singleton_self a)) hparent
    rw [unmarked] at ha
    cases ha
  · intro h b hb hmarked c hc hparent
    obtain hold | hnew := List.mem_append.mp hb
    · obtain hchild | hchild := List.mem_append.mp hc
      · exact handed b hold hmarked c hchild hparent
      · rw [List.mem_singleton.mp hchild] at hparent
        rw [h b hold hparent] at hmarked
        cases hmarked
    · rw [List.mem_singleton.mp hnew, unmarked] at hmarked
      cases hmarked

end Descent

end Foundation
