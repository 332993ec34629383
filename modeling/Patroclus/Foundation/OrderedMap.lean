import Patroclus.Foundation.Latest
import Mathlib.Data.List.Sort

/-!
# Maps in key order

A map is the list of its entries in the order in which it is iterated, the keys strictly
increasing. The order is a field of the map, so an entry is what is found under its key,
and maps in which the same is found are equal. A map that is written to again and again
holds the latest of the writes.
-/

namespace Foundation

structure OrderedMap (κ α : Type*) [LinearOrder κ] where
  entries : List (κ × α)
  ordered : entries.Pairwise fun a b => a.1 < b.1

namespace OrderedMap

variable {κ α : Type*} [LinearOrder κ]

def empty : OrderedMap κ α := ⟨[], List.Pairwise.nil⟩

def get? (m : OrderedMap κ α) (key : κ) : Option α := m.entries.lookup key

/-- The entries after a write. -/
def put (key : κ) (value : α) : List (κ × α) → List (κ × α)
  | [] => [(key, value)]
  | entry :: rest =>
      if entry.1 < key then entry :: put key value rest
      else if entry.1 = key then (key, value) :: rest
      else (key, value) :: entry :: rest

theorem of_mem_put {key : κ} {value : α} {entries : List (κ × α)} {entry : κ × α}
    (h : entry ∈ put key value entries) : entry = (key, value) ∨ entry ∈ entries := by
  induction entries with
  | nil => exact .inl (List.mem_singleton.mp h)
  | cons head rest ih =>
      rw [put] at h
      split_ifs at h with hbefore hsame
      · obtain rfl | hrest := List.mem_cons.mp h
        · exact .inr List.mem_cons_self
        · exact (ih hrest).imp_right (List.mem_cons_of_mem head)
      · exact (List.mem_cons.mp h).imp_right (List.mem_cons_of_mem head)
      · exact List.mem_cons.mp h

theorem ordered_put {key : κ} {value : α} {entries : List (κ × α)}
    (h : entries.Pairwise fun a b => a.1 < b.1) :
    (put key value entries).Pairwise fun a b => a.1 < b.1 := by
  induction entries with
  | nil => exact List.pairwise_singleton _ _
  | cons head rest ih =>
      obtain ⟨hhead, hrest⟩ := List.pairwise_cons.mp h
      rw [put]
      split_ifs with hbefore hsame
      · refine List.pairwise_cons.mpr ⟨fun entry hentry => ?_, ih hrest⟩
        obtain rfl | hold := of_mem_put hentry
        · exact hbefore
        · exact hhead entry hold
      · exact List.pairwise_cons.mpr ⟨fun entry hentry => hsame ▸ hhead entry hentry, hrest⟩
      · have hfirst : key < head.1 := lt_of_le_of_ne (not_lt.mp hbefore) (Ne.symm hsame)
        refine List.pairwise_cons.mpr ⟨fun entry hentry => ?_, h⟩
        obtain rfl | hlater := List.mem_cons.mp hentry
        · exact hfirst
        · exact hfirst.trans (hhead entry hlater)

theorem lookup_entry (entry : κ × α) (rest : List (κ × α)) (key : κ) :
    (entry :: rest).lookup key = if key = entry.1 then some entry.2 else rest.lookup key := by
  obtain ⟨k, v⟩ := entry
  rw [List.lookup_cons]
  by_cases h : key = k
  · rw [if_pos h, beq_iff_eq.mpr h]
  · rw [if_neg h, beq_eq_false_iff_ne.mpr h]

theorem lookup_put (key other : κ) (value : α) (entries : List (κ × α)) :
    (put key value entries).lookup other =
      if other = key then some value else entries.lookup other := by
  induction entries with
  | nil => exact lookup_entry (key, value) [] other
  | cons head rest ih =>
      rw [put, lookup_entry]
      by_cases hbefore : head.1 < key
      · rw [if_pos hbefore, lookup_entry, ih]
        by_cases hkey : other = head.1
        · rw [if_pos hkey, if_pos hkey, if_neg (hkey ▸ hbefore.ne)]
        · rw [if_neg hkey, if_neg hkey]
      · rw [if_neg hbefore]
        by_cases hsame : head.1 = key
        · rw [if_pos hsame, lookup_entry, hsame]
          split <;> rfl
        · rw [if_neg hsame, lookup_entry, lookup_entry]

def insert (key : κ) (value : α) (m : OrderedMap κ α) : OrderedMap κ α :=
  ⟨put key value m.entries, ordered_put m.ordered⟩

/-- The entries whose keys meet a condition. -/
def restrict (keep : κ → Bool) (m : OrderedMap κ α) : OrderedMap κ α :=
  ⟨m.entries.filter fun entry => keep entry.1, m.ordered.filter _⟩

/-- The map after a list of writes. -/
def ofList (writes : List (κ × α)) : OrderedMap κ α :=
  writes.foldl (fun m write => m.insert write.1 write.2) empty

section

variable {m m' : OrderedMap κ α} {key : κ} {value : α} {writes : List (κ × α)}

theorem get?_insert (m : OrderedMap κ α) (key other : κ) (value : α) :
    (m.insert key value).get? other = if other = key then some value else m.get? other :=
  lookup_put key other value m.entries

theorem mem_entries_iff : (key, value) ∈ m.entries ↔ m.get? key = some value := by
  obtain ⟨entries, hordered⟩ := m
  show (key, value) ∈ entries ↔ entries.lookup key = some value
  induction entries with
  | nil => simp
  | cons head rest ih =>
      obtain ⟨hhead, hrest⟩ := List.pairwise_cons.mp hordered
      obtain ⟨k, v⟩ := head
      rw [List.mem_cons, lookup_entry, ih hrest]
      by_cases hkey : key = k
      · subst hkey
        have hnone : ¬ rest.lookup key = some value :=
          fun hlater => lt_irrefl key (hhead (key, value) ((ih hrest).mpr hlater))
        simp only [if_true, Prod.mk.injEq, true_and, Option.some.injEq, hnone, or_false]
        exact eq_comm
      · simp [hkey]

/-- Maps in which the same is found are equal. -/
theorem ext_get? (h : ∀ key, m.get? key = m'.get? key) : m = m' := by
  have hentries : m.entries = m'.entries := by
    have : Std.Antisymm fun a b : κ × α => a.1 < b.1 := ⟨fun _ _ hab hba => (lt_asymm hab hba).elim⟩
    have : Std.Irrefl fun a b : κ × α => a.1 < b.1 := ⟨fun a => lt_irrefl a.1⟩
    apply m.ordered.eq_of_mem_iff m'.ordered
    intro entry
    rw [mem_entries_iff, mem_entries_iff, h]
  cases m
  cases m'
  cases hentries
  rfl

theorem get?_restrict (keep : κ → Bool) (m : OrderedMap κ α) (key : κ) :
    (m.restrict keep).get? key = if keep key then m.get? key else none := by
  apply Option.ext
  intro value
  rw [← mem_entries_iff]
  show (key, value) ∈ m.entries.filter _ ↔ _
  rw [List.mem_filter, mem_entries_iff]
  cases keep key <;> simp

theorem ofList_concat (writes : List (κ × α)) (write : κ × α) :
    ofList (writes ++ [write]) = (ofList writes).insert write.1 write.2 := by
  rw [ofList, List.foldl_append]
  rfl

/-- A map holds what was written to a key last. -/
theorem get?_ofList (writes : List (κ × α)) (key : κ) :
    (ofList writes).get? key = latest key writes := by
  induction writes using List.reverseRecOn with
  | nil => rfl
  | append_singleton writes write ih =>
      rw [ofList_concat, get?_insert, latest_concat, ih]
      simp only [eq_comm]

/-- The writes to some of the keys make the part of the map that has these keys. -/
theorem restrict_ofList (keep : κ → Bool) (writes : List (κ × α)) :
    (ofList writes).restrict keep = ofList (writes.filter fun write => keep write.1) := by
  apply ext_get?
  intro key
  rw [get?_restrict, get?_ofList, get?_ofList]
  split
  · rename_i hkey
    exact (latest_filter hkey).symm
  · rename_i hkey
    exact (latest_filter_eq_none hkey).symm

end

end OrderedMap

end Foundation
