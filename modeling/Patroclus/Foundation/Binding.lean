import Mathlib.Data.List.Nodup
import Patroclus.Foundation.Run
import Patroclus.Foundation.Unwinding

/-!
# Binding keys to rows

A table of rows with distinct ids, in which a row is looked up by a key that need not
be distinct. Binding a key finds the first row with it, or appends a new row. It may
also overlook the row that is there and append another one, whose id then belongs to
that binding alone.

In a run of bindings, two of them have the same id exactly when they have the same key
and neither has overlooked a row.
-/

namespace Foundation

section

variable {σ ι ρ : Type*} {step : σ → ι → σ} {reply : σ → ι → ρ} {ok : σ → ι → Prop}
  {inputs : List ι} {s : σ}

theorem map_transcript (reply : σ → ι → ρ) {ρ' : Type*} (f : ρ → ρ') :
    (transcript step reply s inputs).map (fun answered => (answered.1, f answered.2)) =
      transcript step (fun s input => f (reply s input)) s inputs := by
  induction inputs generalizing s with
  | nil => rfl
  | cons input inputs ih => simp only [transcript, List.map_cons, ih]

/-- What an answer has established, and later steps keep, relates the later answers to it. -/
theorem Along.pairwise_transcript (I : σ → Prop) (held : σ → ι × ρ → Prop)
    {related : ι × ρ → ι × ρ → Prop}
    (preserved : ∀ s input, I s → ok s input → I (step s input))
    (established : ∀ s input, I s → ok s input → held (step s input) (input, reply s input))
    (kept : ∀ s input answered, ok s input → held s answered → held (step s input) answered)
    (later : ∀ s input answered, ok s input → held s answered →
      related answered (input, reply s input))
    (start : I s) (h : Along step ok s inputs) :
    (transcript step reply s inputs).Pairwise related := by
  have relates (answered : ι × ρ) : ∀ {inputs : List ι} {s : σ}, held s answered →
      Along step ok s inputs → ∀ next ∈ transcript step reply s inputs, related answered next := by
    intro inputs
    induction inputs with
    | nil =>
        intro s _ _ next hnext
        cases hnext
    | cons input inputs ih =>
        intro s hheld h next hnext
        rcases List.mem_cons.mp hnext with rfl | hnext
        · exact later s input answered h.1 hheld
        · exact ih (kept s input answered h.1 hheld) h.2 next hnext
  induction inputs generalizing s with
  | nil => exact List.Pairwise.nil
  | cons input inputs ih =>
      refine List.pairwise_cons.mpr ⟨?_, ih (preserved s input start h.1) h.2⟩
      exact relates _ (established s input start h.1) h.2

end

section

variable {κ ν ρ : Type*} [DecidableEq κ] (key : ρ → κ) (id : ρ → ν)

/-- The id of the first row with a key. -/
def boundId (rows : List ρ) (k : κ) : Option ν := (rows.find? fun row => key row = k).map id

/-- A key is bound to an id: to that of the row that is found, or to that of a new row,
because there is none or because the one that is there is overlooked. -/
inductive Binds (rows : List ρ) : (overlooked : Bool) → κ → ν → List ρ → Prop where
  | found {k : κ} {v : ν} (present : boundId key id rows k = some v) :
      Binds rows false k v rows
  | provided {row : ρ} (absent : boundId key id rows (key row) = none)
      (fresh : id row ∉ rows.map id) : Binds rows false (key row) (id row) (rows ++ [row])
  | overlooked {row : ρ} (present : boundId key id rows (key row) ≠ none)
      (fresh : id row ∉ rows.map id) : Binds rows true (key row) (id row) (rows ++ [row])

/-- What is known of an earlier binding: its id is taken, and is found by its own key
only, or by none if it has overlooked a row. -/
structure HeldBinding (rows : List ρ) (overlooked : Bool) (k : κ) (v : ν) : Prop where
  taken : v ∈ rows.map id
  found_iff : ∀ k', boundId key id rows k' = some v ↔ overlooked = false ∧ k' = k

/-- With distinct keys, a row is found by its key. -/
theorem find?_of_nodup_map [BEq ν] [LawfulBEq ν] {rows : List ρ} {row : ρ}
    (distinct : (rows.map id).Nodup) (mem : row ∈ rows) :
    rows.find? (fun found => id found == id row) = some row := by
  have hsome : (rows.find? fun found => id found == id row).isSome :=
    List.find?_isSome.mpr ⟨row, mem, beq_self_eq_true (id row)⟩
  obtain ⟨found, hfound⟩ := Option.isSome_iff_exists.mp hsome
  have hid := List.find?_some hfound
  rw [hfound, List.inj_on_of_nodup_map distinct (List.mem_of_find?_eq_some hfound) mem
    (beq_iff_eq.mp hid)]

/-- Selections of rows with distinct ids are the same exactly if they agree on every row. -/
theorem map_filter_perm_iff {keep keep' : ρ → Bool} {rows : List ρ}
    (distinct : (rows.map id).Nodup) :
    ((rows.filter keep).map id).Perm ((rows.filter keep').map id) ↔
      ∀ row ∈ rows, keep row = keep' row := by
  constructor
  · intro hperm row hrow
    have hkept {keep : ρ → Bool} :
        id row ∈ (rows.filter keep).map id ↔ keep row = true := by
      rw [List.mem_map]
      constructor
      · rintro ⟨other, hother, hkey⟩
        obtain ⟨hmem, hkeep⟩ := List.mem_filter.mp hother
        rwa [← List.inj_on_of_nodup_map distinct hmem hrow hkey]
      · intro hkeep
        exact ⟨row, List.mem_filter.mpr ⟨hrow, hkeep⟩, rfl⟩
    rw [Bool.eq_iff_iff, ← hkept, ← hkept]
    exact hperm.mem_iff
  · intro hsame
    rw [List.filter_congr hsame]

variable {key id} {rows rows' : List ρ} {row : ρ} {k k' : κ} {v v' : ν}
  {overlooked overlooked' : Bool}

theorem boundId_eq_some (h : boundId key id rows k = some v) :
    ∃ row ∈ rows, key row = k ∧ id row = v := by
  obtain ⟨row, hfind, hid⟩ := Option.map_eq_some_iff.mp h
  exact ⟨row, List.mem_of_find?_eq_some hfind, by simpa using List.find?_some hfind, hid⟩

theorem boundId_eq_none : boundId key id rows k = none ↔ ∀ row ∈ rows, key row ≠ k := by
  simp [boundId]

theorem boundId_append : boundId key id (rows ++ [row]) k =
    (boundId key id rows k).or (if key row = k then some (id row) else none) := by
  unfold boundId
  rw [List.find?_append, Option.map_or, List.find?_singleton, apply_ite (Option.map id)]
  simp only [decide_eq_true_eq, Option.map_some, Option.map_none]

/-- With distinct ids, an id belongs to one key. -/
theorem boundId_inj (distinct : (rows.map id).Nodup) (h : boundId key id rows k = some v)
    (h' : boundId key id rows k' = some v) : k' = k := by
  obtain ⟨row, hrow, rfl, hid⟩ := boundId_eq_some h
  obtain ⟨row', hrow', rfl, hid'⟩ := boundId_eq_some h'
  rw [List.inj_on_of_nodup_map distinct hrow' hrow (hid'.trans hid.symm)]

theorem nodup_append_fresh (distinct : (rows.map id).Nodup) (fresh : id row ∉ rows.map id) :
    ((rows ++ [row]).map id).Nodup := by
  rw [List.map_append, List.map_singleton, ← List.concat_eq_append]
  exact distinct.concat fresh

/-- A new row is found only by a key that had none. -/
theorem boundId_append_fresh (fresh : id row ∉ rows.map id) :
    boundId key id (rows ++ [row]) k = some (id row) ↔
      boundId key id rows k = none ∧ k = key row := by
  have hne : boundId key id rows k ≠ some (id row) := by
    intro h
    obtain ⟨row', hrow', -, hid⟩ := boundId_eq_some h
    exact fresh (List.mem_map.mpr ⟨row', hrow', hid⟩)
  rw [boundId_append]
  cases hold : boundId key id rows k with
  | some old =>
      rw [hold] at hne
      simp [hne]
  | none => simp [eq_comm]

namespace Binds

theorem distinct (h : Binds key id rows overlooked k v rows') (start : (rows.map id).Nodup) :
    (rows'.map id).Nodup := by
  cases h with
  | found present => exact start
  | provided absent fresh => exact nodup_append_fresh start fresh
  | overlooked present fresh => exact nodup_append_fresh start fresh

theorem held (h : Binds key id rows overlooked k v rows') (distinct : (rows.map id).Nodup) :
    HeldBinding key id rows' overlooked k v := by
  cases h with
  | found present =>
      obtain ⟨row, hrow, -, rfl⟩ := boundId_eq_some present
      refine ⟨List.mem_map_of_mem hrow, fun k' => ?_⟩
      constructor
      · intro h
        exact ⟨rfl, boundId_inj distinct present h⟩
      · rintro ⟨-, rfl⟩
        exact present
  | provided absent fresh =>
      refine ⟨by simp, fun k' => ?_⟩
      rw [boundId_append_fresh fresh]
      constructor
      · rintro ⟨-, rfl⟩
        exact ⟨rfl, rfl⟩
      · rintro ⟨-, rfl⟩
        exact ⟨absent, rfl⟩
  | overlooked present fresh =>
      refine ⟨by simp, fun k' => ?_⟩
      rw [boundId_append_fresh fresh]
      refine iff_of_false ?_ nofun
      rintro ⟨habsent, rfl⟩
      exact present habsent

end Binds

namespace HeldBinding

theorem append (h : HeldBinding key id rows overlooked k v) (fresh : id row ∉ rows.map id) :
    HeldBinding key id (rows ++ [row]) overlooked k v := by
  have hne : id row ≠ v := by
    rintro rfl
    exact fresh h.taken
  refine ⟨by simp [h.taken], fun k' => ?_⟩
  rw [← h.found_iff k', boundId_append]
  by_cases hkey : key row = k'
  · cases boundId key id rows k' with
    | some old => simp
    | none => simp [hkey, hne]
  · simp [hkey]

theorem binds (h : HeldBinding key id rows overlooked k v)
    (binding : Binds key id rows overlooked' k' v' rows') :
    HeldBinding key id rows' overlooked k v := by
  cases binding with
  | found present => exact h
  | provided absent fresh => exact h.append fresh
  | overlooked present fresh => exact h.append fresh

/-- A later binding has the same id exactly when it has the same key and neither of the
two has overlooked a row. -/
theorem eq_iff (h : HeldBinding key id rows overlooked k v)
    (binding : Binds key id rows overlooked' k' v' rows') :
    v = v' ↔ k = k' ∧ overlooked = false ∧ overlooked' = false := by
  cases binding with
  | found present =>
      constructor
      · rintro rfl
        obtain ⟨hoverlooked, hkey⟩ := (h.found_iff k').mp present
        exact ⟨hkey.symm, hoverlooked, rfl⟩
      · rintro ⟨rfl, hoverlooked, -⟩
        have hown := (h.found_iff k).mpr ⟨hoverlooked, rfl⟩
        exact Option.some.inj (hown.symm.trans present)
  | provided absent fresh =>
      refine iff_of_false ?_ ?_
      · rintro rfl
        exact fresh h.taken
      · rintro ⟨rfl, hoverlooked, -⟩
        rw [(h.found_iff _).mpr ⟨hoverlooked, rfl⟩] at absent
        cases absent
  | overlooked present fresh =>
      refine iff_of_false ?_ nofun
      rintro rfl
      exact fresh h.taken

end HeldBinding

end

end Foundation
