import Mathlib.Data.List.AList

/-!
# Association tables

Two updates on finite maps that `AList` lacks: changing the value of a key that
is present, and changing every value at once.
-/

namespace Foundation

variable {α : Type*} [DecidableEq α] {β : Type*}

/-- Change the value of one key; a missing key stays missing. -/
def modifyAt (key : α) (f : β → β) (m : AList fun _ : α => β) : AList fun _ : α => β :=
  match m.lookup key with
  | some value => m.insert key (f value)
  | none => m

omit [DecidableEq α] in
private theorem keys_map (f : β → β) (entries : List ((_ : α) × β)) :
    (entries.map fun entry => (⟨entry.1, f entry.2⟩ : (_ : α) × β)).keys = entries.keys := by
  simp [List.keys, Function.comp_def]

/-- Change every value. -/
def mapValues (f : β → β) (m : AList fun _ : α => β) : AList fun _ : α => β where
  entries := m.entries.map fun entry => ⟨entry.1, f entry.2⟩
  nodupKeys := by
    have h := m.nodupKeys
    rwa [List.NodupKeys, ← keys_map f] at h

private theorem dlookup_map (f : β → β) (key : α)
    (entries : List ((_ : α) × β)) :
    List.dlookup key (entries.map fun entry => (⟨entry.1, f entry.2⟩ : (_ : α) × β)) =
      Option.map f (β := β) (List.dlookup key entries) := by
  induction entries with
  | nil => rfl
  | cons entry entries ih =>
      obtain ⟨k, v⟩ := entry
      by_cases h : k = key
      · subst h
        simp
      · have hmiss (value : β) (rest : List ((_ : α) × β)) :
            List.dlookup key (⟨k, value⟩ :: rest) = List.dlookup key rest :=
          List.dlookup_cons_ne rest ⟨k, value⟩ (Ne.symm h)
        simp only [List.map_cons, hmiss, ih]

@[simp] theorem lookup_mapValues (f : β → β) (m : AList fun _ : α => β) (key : α) :
    (mapValues f m).lookup key = (m.lookup key).map f :=
  dlookup_map f key m.entries

@[simp] theorem lookup_modifyAt_self (key : α) (f : β → β) (m : AList fun _ : α => β) :
    (modifyAt key f m).lookup key = (m.lookup key).map f := by
  rw [modifyAt]
  split
  · rename_i h
    rw [AList.lookup_insert, h, Option.map_some]
  · rename_i h
    rw [h, Option.map_none]

theorem lookup_modifyAt_of_ne {key other : α} (h : other ≠ key) (f : β → β)
    (m : AList fun _ : α => β) : (modifyAt key f m).lookup other = m.lookup other := by
  rw [modifyAt]
  split
  · rw [AList.lookup_insert_ne h]
  · rfl

end Foundation
