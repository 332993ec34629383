import Mathlib.Data.Finset.Card
import Mathlib.Data.List.Infix
import Mathlib.Data.List.Nodup
import Mathlib.Logic.Relation

/-!
# Sweeping what is below a key

Keys have children, and no key has two parents; there may be cycles. Some keys are open. A
sweep closes a key, lists the children that are open then, and sweeps them one after the
other. It may stop with an error, and some of the children may be missing from its list.

A sweep closes nothing but what is below its key through open keys. It closes all of that
exactly if nothing was missing: what a list leaves out stays open, since it can be reached
through its parent only.
-/

namespace Foundation

/-- Keys and their children. A key is the child of one key at most. -/
structure Lineage {κ : Type*} (children : κ → List κ) : Prop where
  nodup : ∀ k, (children k).Nodup
  unique : ∀ {k k' j}, j ∈ children k → j ∈ children k' → k = k'

namespace Sweep

variable {κ β : Type*} [DecidableEq κ] (children : κ → List κ)

def openChildren (S : Finset κ) (k : κ) : List κ := (children k).filter (· ∈ S)

def Leads (S : Finset κ) (k j : κ) : Prop := j ∈ children k ∧ j ∈ S

/-- Reached by child links through open keys. The first key need not be open. -/
abbrev Below (S : Finset κ) : κ → κ → Prop := Relation.TransGen (Leads children S)

/-- The nodes of a sweep in its order, each with the children it lists. -/
def itinerary (node : List κ → List β) : Nat → Finset κ → κ → List β
  | 0, _, _ => []
  | fuel + 1, S, i =>
      let listed := openChildren children (S.erase i) i
      node listed ++ listed.flatMap (itinerary node fuel (S.erase i))

/-- What a sweep of `i` makes of the open keys. It is `clear` if nothing is missing. -/
structure Sweeps (clear : Prop) (S : Finset κ) (i : κ) (out : Option (List κ))
    (S' : Finset κ) : Prop where
  subset : S' ⊆ S
  sound : ∀ j ∈ S, j ∉ S' → j = i ∨ Below children S i j
  returns : clear → ∃ ids, out = some ids
  closes : ∀ ids, out = some ids → i ∉ S'
  lists : ∀ ids, out = some ids → ids.Nodup ∧ ids.head? = some i ∧
    ∀ j, j ∈ ids ↔ j = i ∨ j ∈ S ∧ j ∉ S'
  complete_iff : ∀ ids, out = some ids → (clear ↔ ∀ j, Below children S i j → j ∉ S')

/-- What the sweeps of a list of keys make of the open keys. -/
structure SweepsAll (clear : Prop) (S : Finset κ) (cs : List κ) (out : Option (List (List κ)))
    (S' : Finset κ) : Prop where
  subset : S' ⊆ S
  sound : ∀ j ∈ S, j ∉ S' → ∃ c ∈ cs, j = c ∨ Below children S c j
  returns : clear → ∃ lists, out = some lists
  lists : ∀ lists, out = some lists → lists.flatten.Nodup ∧
    ∀ j, j ∈ lists.flatten ↔ j ∈ S ∧ j ∉ S'
  closes : ∀ lists, out = some lists → ∀ c ∈ cs, c ∉ S'
  complete_iff : ∀ lists, out = some lists →
    (clear ↔ ∀ c ∈ cs, ∀ j, Below children S c j → j ∉ S')

/-- Keys that are open children of a key that is not open. -/
structure Siblings (S : Finset κ) (i : κ) (cs : List κ) : Prop where
  lineage : Lineage children
  closed : i ∉ S
  nodup : cs.Nodup
  child : ∀ c ∈ cs, c ∈ children i
  isOpen : ∀ c ∈ cs, c ∈ S

variable {children : κ → List κ} {S S' S₁ : Finset κ} {i j k c : κ}

theorem mem_openChildren : j ∈ openChildren children S k ↔ Leads children S k j := by
  rw [openChildren, List.mem_filter, decide_eq_true_iff]
  exact Iff.rfl

/-! ## What is below a key -/

section

omit [DecidableEq κ]

theorem Below.mono (h : Below children S' i j) (subset : S' ⊆ S) : Below children S i j :=
  Relation.TransGen.mono (fun _ _ leads => ⟨leads.1, subset leads.2⟩) _ _ h

theorem Below.isOpen (h : Below children S i j) : j ∈ S := by
  cases h with
  | single leads => exact leads.2
  | tail _ leads => exact leads.2

/-- The parent of a key below `i` is `i`, or is below it. -/
theorem Below.parent (l : Lineage children) (h : Below children S i j) (child : j ∈ children k) :
    k = i ∨ Below children S i k := by
  cases h with
  | single leads => exact .inl (l.unique child leads.1)
  | tail hbelow leads => exact .inr (l.unique child leads.1 ▸ hbelow)

/-- A key below `i` whose parent is not open is a child of `i`. -/
theorem Below.parent_of_closed (l : Lineage children) (h : Below children S i j)
    (child : j ∈ children k) (closed : k ∉ S) : k = i := by
  obtain heq | hbelow := h.parent l child
  · exact heq
  · exact absurd (Below.isOpen hbelow) closed

/-- Above a key that remains open there is one that remains open below one that does not. -/
theorem Below.frontier (h : Below children S i j) (closed : i ∉ S') (remains : j ∈ S') :
    ∃ j ∈ S', Below children S i j ∧
      ∃ k, k ∉ S' ∧ j ∈ children k ∧ (k = i ∨ Below children S i k) := by
  induction h with
  | single leads => exact ⟨_, remains, .single leads, i, closed, leads.1, .inl rfl⟩
  | @tail k j hbelow leads ih =>
      by_cases hk : k ∈ S'
      · exact ih hk
      · exact ⟨j, remains, hbelow.tail leads, k, hk, leads.1, .inr hbelow⟩

namespace Siblings

variable {cs : List κ} {r : κ}

/-- A sibling is not below another. -/
theorem not_below (h : Siblings children S i cs) (hc : c ∈ cs) (hr : r ∈ cs) :
    ¬ Below children S c r := by
  intro hbelow
  have hparent := Below.parent_of_closed h.lineage hbelow (h.child r hr) h.closed
  exact h.closed (hparent ▸ h.isOpen c hc)

/-- What is below one sibling is neither another one nor below it. -/
theorem apart (h : Siblings children S i cs) (hc : c ∈ cs) (hr : r ∈ cs) (distinct : c ≠ r)
    (below : Below children S r j) : j ≠ c ∧ ¬ Below children S c j := by
  have hother {j : κ} (hj : Below children S r j) : j ≠ c := by
    rintro rfl
    exact h.not_below hr hc hj
  refine ⟨hother below, ?_⟩
  induction below with
  | single leads =>
      intro hcommon
      obtain heq | hcommon := hcommon.parent h.lineage leads.1
      · exact distinct heq.symm
      · exact h.not_below hc hr hcommon
  | tail hbelow leads ih =>
      intro hcommon
      obtain heq | hcommon := hcommon.parent h.lineage leads.1
      · exact hother hbelow heq
      · exact ih hcommon

variable {rest : List κ}

/-- What is below a later sibling is not swept with the first. -/
theorem remains (h : Siblings children S i (c :: rest))
    (sound : ∀ j ∈ S, j ∉ S₁ → j = c ∨ Below children S c j) (hr : r ∈ rest)
    (below : Below children S r j) : j ∈ S₁ := by
  have hdistinct : c ≠ r := fun heq => (List.nodup_cons.mp h.nodup).1 (heq ▸ hr)
  obtain ⟨hother, hapart⟩ :=
    h.apart List.mem_cons_self (List.mem_cons_of_mem c hr) hdistinct below
  by_contra hclosed
  exact (sound j below.isOpen hclosed).elim hother hapart

theorem below_rest (h : Siblings children S i (c :: rest))
    (sound : ∀ j ∈ S, j ∉ S₁ → j = c ∨ Below children S c j) (hr : r ∈ rest)
    (below : Below children S r j) : Below children S₁ r j := by
  induction below with
  | single leads => exact .single ⟨leads.1, h.remains sound hr (.single leads)⟩
  | tail hbelow leads ih =>
      exact ih.tail ⟨leads.1, h.remains sound hr (hbelow.tail leads)⟩

/-- The others remain siblings after the first has been swept. -/
theorem tail (h : Siblings children S i (c :: rest)) (subset : S₁ ⊆ S)
    (sound : ∀ j ∈ S, j ∉ S₁ → j = c ∨ Below children S c j) : Siblings children S₁ i rest where
  lineage := h.lineage
  closed := fun hi => h.closed (subset hi)
  nodup := h.nodup.of_cons
  child := fun r hr => h.child r (List.mem_cons_of_mem c hr)
  isOpen := by
    intro r hr
    by_contra hclosed
    have hmem := List.mem_cons_of_mem c hr
    obtain rfl | hbelow := sound r (h.isOpen r hmem) hclosed
    · exact (List.nodup_cons.mp h.nodup).1 hr
    · exact h.not_below List.mem_cons_self hmem hbelow

end Siblings

/-! ## Sweeps that stop -/

theorem Sweeps.refused : Sweeps children False S i none S where
  subset := Finset.Subset.refl S
  sound := fun _ hj hclosed => absurd hj hclosed
  returns := False.elim
  closes := nofun
  lists := nofun
  complete_iff := nofun

theorem SweepsAll.nil : SweepsAll children True S [] (some []) S where
  subset := Finset.Subset.refl S
  sound := fun _ hj hclosed => absurd hj hclosed
  returns := fun _ => ⟨[], rfl⟩
  lists := by
    rintro _ ⟨⟩
    exact ⟨List.nodup_nil, fun j => iff_of_false List.not_mem_nil fun h => h.2 h.1⟩
  closes := fun _ _ _ hc => absurd hc List.not_mem_nil
  complete_iff := fun _ _ => iff_of_true trivial fun _ hc => absurd hc List.not_mem_nil

/-- The first sweep stops. -/
theorem SweepsAll.stop {clear clear' : Prop} {rest : List κ}
    (head : Sweeps children clear S c none S₁) (imp : clear' → clear) :
    SweepsAll children clear' S (c :: rest) none S₁ where
  subset := head.subset
  sound := fun j hj hclosed => ⟨c, List.mem_cons_self, head.sound j hj hclosed⟩
  returns := fun h => by
    obtain ⟨_, hnone⟩ := head.returns (imp h)
    cases hnone
  lists := nofun
  closes := nofun
  complete_iff := nofun

end

/-! ## Itineraries -/

/-- The itinerary depends on what is open below the key only. -/
theorem itinerary_congr {node : List κ → List β} {fuel : Nat}
    (remains : ∀ j, Below children S i j → j ∈ S₁) (subset : S₁ ⊆ S) :
    itinerary children node fuel S i = itinerary children node fuel S₁ i := by
  induction fuel generalizing S S₁ i with
  | zero => rfl
  | succ fuel ih =>
      have hlisted :
          openChildren children (S.erase i) i = openChildren children (S₁.erase i) i := by
        refine List.filter_congr fun j hj => decide_eq_decide.mpr ?_
        rw [Finset.mem_erase, Finset.mem_erase]
        exact and_congr_right fun _ => ⟨fun h => remains j (.single ⟨hj, h⟩), fun h => subset h⟩
      rw [itinerary, itinerary, hlisted]
      congr 1
      refine List.flatMap_congr fun c hc => ih (fun j hj => ?_) (Finset.erase_subset_erase i subset)
      have hleads : Leads children S i c := by
        obtain ⟨hchild, hopen⟩ := mem_openChildren.mp (hlisted ▸ hc)
        exact ⟨hchild, Finset.mem_of_mem_erase hopen⟩
      refine Finset.mem_erase.mpr ⟨Finset.ne_of_mem_erase hj.isOpen, remains j ?_⟩
      exact .head hleads (hj.mono (Finset.erase_subset i S))

/-! ## Sweeps -/

theorem Sweeps.unlisted : Sweeps children False S i none (S.erase i) where
  subset := Finset.erase_subset i S
  sound := by
    intro j hj hclosed
    by_contra hother
    exact hclosed (Finset.mem_erase.mpr ⟨fun heq => hother (.inl heq), hj⟩)
  returns := False.elim
  closes := nofun
  lists := nofun
  complete_iff := nofun

section

variable {clear clear' : Prop} {rest ids : List κ} {out : Option (List (List κ))}

/-- The first sweep returns, and the others follow. -/
theorem SweepsAll.cons (siblings : Siblings children S i (c :: rest))
    (head : Sweeps children clear S c (some ids) S₁)
    (tail : SweepsAll children clear' S₁ rest out S') :
    SweepsAll children (clear ∧ clear') S (c :: rest) (out.map (ids :: ·)) S' where
  subset := tail.subset.trans head.subset
  sound := by
    intro j hj hclosed
    by_cases hmiddle : j ∈ S₁
    · obtain ⟨r, hr, hswept⟩ := tail.sound j hmiddle hclosed
      exact ⟨r, List.mem_cons_of_mem c hr, hswept.imp_right fun h => h.mono head.subset⟩
    · exact ⟨c, List.mem_cons_self, head.sound j hj hmiddle⟩
  returns := by
    rintro ⟨-, hclear⟩
    obtain ⟨lists, rfl⟩ := tail.returns hclear
    exact ⟨_, rfl⟩
  lists := by
    intro lists hlists
    obtain ⟨lists, rfl, rfl⟩ := Option.map_eq_some_iff.mp hlists
    obtain ⟨hnodup, -, hids⟩ := head.lists ids rfl
    obtain ⟨hrest, hmem⟩ := tail.lists lists rfl
    have hc := siblings.isOpen c List.mem_cons_self
    have hfirst (j : κ) : j ∈ ids ↔ j ∈ S ∧ j ∉ S₁ := by
      rw [hids]
      exact or_iff_right_of_imp fun heq => ⟨heq ▸ hc, heq ▸ head.closes ids rfl⟩
    rw [List.flatten_cons]
    refine ⟨List.nodup_append'.mpr ⟨hnodup, hrest, fun j hj hj' => ?_⟩, fun j => ?_⟩
    · exact ((hfirst j).mp hj).2 ((hmem j).mp hj').1
    · rw [List.mem_append, hfirst, hmem]
      constructor
      · rintro (⟨hopen, hclosed⟩ | ⟨hopen, hclosed⟩)
        · exact ⟨hopen, fun h => hclosed (tail.subset h)⟩
        · exact ⟨head.subset hopen, hclosed⟩
      · rintro ⟨hopen, hclosed⟩
        by_cases hmiddle : j ∈ S₁
        · exact .inr ⟨hmiddle, hclosed⟩
        · exact .inl ⟨hopen, hmiddle⟩
  closes := by
    intro lists hlists
    obtain ⟨lists, rfl, -⟩ := Option.map_eq_some_iff.mp hlists
    refine List.forall_mem_cons.mpr ⟨fun h => ?_, tail.closes lists rfl⟩
    exact head.closes ids rfl (tail.subset h)
  complete_iff := by
    intro lists hlists
    obtain ⟨lists, rfl, -⟩ := Option.map_eq_some_iff.mp hlists
    rw [head.complete_iff ids rfl, tail.complete_iff lists rfl, List.forall_mem_cons]
    refine and_congr ⟨fun h j hj hremains => h j hj (tail.subset hremains), fun h => ?_⟩ ?_
    · -- what the first sweep leaves open, no other one reaches
      intro j hj hremains
      obtain ⟨j, hremains, hbelow, k, hk, hchild, hparent⟩ :=
        hj.frontier (head.closes ids rfl) hremains
      obtain ⟨r, hr, hswept⟩ := tail.sound j hremains (h j hbelow)
      have hkS : k ∈ S := by
        obtain rfl | hk := hparent
        · exact siblings.isOpen k List.mem_cons_self
        · exact hk.isOpen
      obtain rfl | hswept := hswept
      · exact siblings.closed
          (siblings.lineage.unique (siblings.child j (List.mem_cons_of_mem c hr)) hchild ▸ hkS)
      · have hkr := hswept.parent_of_closed siblings.lineage hchild hk
        exact hk (hkr ▸ (siblings.tail head.subset head.sound).isOpen r hr)
    · exact forall₂_congr fun r hr => forall_congr' fun j => imp_congr_left
        ⟨fun h => h.mono head.subset, siblings.below_rest head.sound hr⟩

/-- The open children are siblings. -/
theorem siblings_openChildren (l : Lineage children) {cs : List κ}
    (listed : cs.Sublist (openChildren children (S.erase i) i)) :
    Siblings children (S.erase i) i cs where
  lineage := l
  closed := Finset.notMem_erase i S
  nodup := listed.nodup ((l.nodup i).filter _)
  child := fun _ hc => (mem_openChildren.mp (listed.subset hc)).1
  isOpen := fun _ hc => (mem_openChildren.mp (listed.subset hc)).2

/-- A key below `i` is below a child, unless it is `i`. -/
theorem Below.child (h : Below children S i j) : j = i ∨ ∃ c ∈ openChildren children (S.erase i) i,
    j = c ∨ Below children (S.erase i) c j := by
  have hleads {k j : κ} (leads : Leads children S k j) (hj : j ≠ i) :
      Leads children (S.erase i) k j :=
    ⟨leads.1, Finset.mem_erase.mpr ⟨hj, leads.2⟩⟩
  induction h with
  | @single j leads =>
      by_cases hj : j = i
      · exact .inl hj
      · exact .inr ⟨j, mem_openChildren.mpr (hleads leads hj), .inl rfl⟩
  | @tail k j hbelow leads ih =>
      by_cases hj : j = i
      · exact .inl hj
      · refine .inr ?_
        obtain rfl | ⟨c, hc, rfl | hk⟩ := ih
        · exact ⟨j, mem_openChildren.mpr (hleads leads hj), .inl rfl⟩
        · exact ⟨k, hc, .inr (.single (hleads leads hj))⟩
        · exact ⟨c, hc, .inr (hk.tail (hleads leads hj))⟩

/-- A key is closed, and the children that were delivered are swept. -/
theorem SweepsAll.sweeps (l : Lineage children) {cs : List κ}
    (listed : cs.Sublist (openChildren children (S.erase i) i))
    (all : SweepsAll children clear (S.erase i) cs out S') :
    Sweeps children (cs = openChildren children (S.erase i) i ∧ clear) S i
      (out.map fun lists => i :: lists.flatten) S' where
  subset := all.subset.trans (Finset.erase_subset i S)
  sound := by
    intro j hj hclosed
    by_cases hself : j = i
    · exact .inl hself
    · obtain ⟨c, hc, hswept⟩ := all.sound j (Finset.mem_erase.mpr ⟨hself, hj⟩) hclosed
      obtain ⟨hchild, hopen⟩ := mem_openChildren.mp (listed.subset hc)
      have hleads : Leads children S i c := ⟨hchild, Finset.mem_of_mem_erase hopen⟩
      obtain rfl | hbelow := hswept
      · exact .inr (.single hleads)
      · exact .inr (.head hleads (hbelow.mono (Finset.erase_subset i S)))
  returns := by
    rintro ⟨-, hclear⟩
    obtain ⟨lists, rfl⟩ := all.returns hclear
    exact ⟨_, rfl⟩
  closes := fun _ _ hi => Finset.notMem_erase i S (all.subset hi)
  lists := by
    intro ids hids
    obtain ⟨lists, rfl, rfl⟩ := Option.map_eq_some_iff.mp hids
    obtain ⟨hnodup, hmem⟩ := all.lists lists rfl
    refine ⟨List.nodup_cons.mpr ⟨fun hi => ?_, hnodup⟩, rfl, fun j => ?_⟩
    · exact Finset.notMem_erase i S ((hmem i).mp hi).1
    · rw [List.mem_cons, hmem, Finset.mem_erase]
      tauto
  complete_iff := by
    intro ids hids
    obtain ⟨lists, rfl, -⟩ := Option.map_eq_some_iff.mp hids
    have hclosed : i ∉ S' := fun hi => Finset.notMem_erase i S (all.subset hi)
    rw [all.complete_iff lists rfl]
    constructor
    · rintro ⟨rfl, hcomplete⟩ j hj
      obtain rfl | ⟨c, hc, rfl | hbelow⟩ := hj.child
      · exact hclosed
      · exact all.closes lists rfl j hc
      · exact hcomplete c hc j hbelow
    · intro hcomplete
      have hbelow {c j : κ} (hc : c ∈ openChildren children (S.erase i) i)
          (hj : j = c ∨ Below children (S.erase i) c j) : Below children S i j := by
        obtain ⟨hchild, hopen⟩ := mem_openChildren.mp hc
        have hleads : Leads children S i c := ⟨hchild, Finset.mem_of_mem_erase hopen⟩
        obtain rfl | hj := hj
        · exact .single hleads
        · exact .head hleads (hj.mono (Finset.erase_subset i S))
      refine ⟨listed.eq_of_length_le ?_, fun c hc j hj =>
        hcomplete j (hbelow (listed.subset hc) (.inr hj))⟩
      -- a child that was left out is swept with no other one
      refine (((l.nodup i).filter _).subperm fun c hc => ?_).length_le
      obtain ⟨hchild, hopen⟩ := mem_openChildren.mp hc
      obtain ⟨r, hr, rfl | hswept⟩ := all.sound c hopen (hcomplete c (hbelow hc (.inl rfl)))
      · exact hr
      · have siblings : Siblings children (S.erase i) i (openChildren children (S.erase i) i) :=
          siblings_openChildren l (List.Sublist.refl _)
        exact absurd hswept (siblings.not_below (listed.subset hr) hc)

end

/-! ## How deep a sweep goes -/

/-- Calls nested this deep are enough for a sweep: each of them closes an open key, except
perhaps the first. -/
def Enough (fuel : Nat) (S : Finset κ) (i : κ) : Prop := S.card < fuel ∨ i ∈ S ∧ S.card ≤ fuel

omit [DecidableEq κ] in
theorem not_enough_zero : ¬ Enough 0 S i := by
  rintro (hlt | ⟨hmem, hle⟩)
  · exact Nat.not_lt_zero _ hlt
  · have hpos := Finset.card_pos.mpr ⟨i, hmem⟩
    omega

theorem Enough.card_erase_le {fuel : Nat} (h : Enough (fuel + 1) S i) :
    (S.erase i).card ≤ fuel := by
  obtain hlt | ⟨hmem, hle⟩ := h
  · have herase := Finset.card_erase_le (s := S) (a := i)
    omega
  · have herase := Finset.card_erase_lt_of_mem hmem
    omega

end Sweep

end Foundation
