import Patroclus.Layering

/-!
# Variables of others

A variable that starts with the prefix of the program and names no field of the
configuration belongs to somebody else, and is to change nothing. Its value is never used,
but it is read before the field is looked for, and its section is written as a table and
read back, so it can make the layering fail.
-/

namespace Patroclus

open Foundation

/-- The name starts with the prefix and names no field of a section. -/
def IsForeign (name : String) : Prop :=
  startsWith name envPrefix = true ∧
    ∀ (s : SectionName) (key : String), envTarget name = some (s.name, key) → key ∉ s.fieldNames

/-- The environment `vars'` is `vars` with foreign variables added anywhere. -/
inductive AddsForeign : List (String × String) → List (String × String) → Prop
  | nil : AddsForeign [] []
  | keep (var : String × String) {vars vars' : List (String × String)} :
      AddsForeign vars vars' → AddsForeign (var :: vars) (var :: vars')
  | add (var : String × String) {vars vars' : List (String × String)} :
      IsForeign var.1 → AddsForeign vars vars' → AddsForeign vars (var :: vars')

namespace SectionName

/-- The writes to the fields that the section has. -/
def ownWrites (s : SectionName) (vars : List (String × String)) : List (String × String) :=
  (sectionWrites s.name vars).filter fun write => s.fieldNames.contains write.1

/-- What the writes to a section make of it; without one it stays as it is. -/
def Patches (toml : Toml.Parser) (s : SectionName) (writes : List (String × String))
    (c c' : s.Config) : Prop :=
  if writes = [] then c' = c else patchSection toml s c (.ofList writes) = .ok c'

/-- A section is written to, and it cannot be written as a table, or the last value for a
field that it does not have is refused. -/
def Obstructed (toml : Toml.Parser) (s : SectionName) (writes : List (String × String))
    (c : s.Config) : Prop :=
  writes ≠ [] ∧ (¬ s.Fits c ∨ ∃ key raw, key ∉ s.fieldNames ∧ latest key writes = some raw ∧
    ¬ Accepted toml raw)

end SectionName

/-- The variables that name fields are accepted. -/
def OwnAccepted (toml : Toml.Parser) (c : FileConfig) (vars : List (String × String)) : Prop :=
  ∀ s : SectionName, ∃ value, s.Patches toml (s.ownWrites vars) (c.get s) value

/-- No section is obstructed by the variables that name none of its fields. -/
def Unobstructed (toml : Toml.Parser) (c : FileConfig) (vars : List (String × String)) : Prop :=
  ∀ s : SectionName, ¬ s.Obstructed toml (sectionWrites s.name vars) (c.get s)

section

variable {toml : Toml.Parser} {c c' : FileConfig} {vars vars' : List (String × String)}

theorem SectionName.ownWrites_cons (s : SectionName) (var : String × String)
    (vars : List (String × String)) :
    s.ownWrites (var :: vars) = s.ownWrites [var] ++ s.ownWrites vars := by
  rw [ownWrites, ← List.singleton_append, sectionWrites_append, List.filter_append]
  rfl

theorem IsForeign.ownWrites_eq {var : String × String} (h : IsForeign var.1) (s : SectionName) :
    s.ownWrites [var] = [] := by
  rw [SectionName.ownWrites, List.filter_eq_nil_iff]
  intro write hwrite hknown
  cases htarget : envTarget var.1 with
  | none => simp [sectionWrites, htarget] at hwrite
  | some target =>
      rw [sectionWrites_singleton var htarget] at hwrite
      split at hwrite
      · rename_i hname
        obtain rfl := List.mem_singleton.mp hwrite
        have hforeign := h.2 s target.2 (htarget.trans (congrArg some (Prod.ext hname rfl)))
        exact hforeign (List.contains_iff_mem.mp hknown)
      · cases hwrite

/-- Foreign variables write to no field of a section. -/
theorem AddsForeign.ownWrites_eq (h : AddsForeign vars vars') (s : SectionName) :
    s.ownWrites vars' = s.ownWrites vars := by
  induction h with
  | nil => rfl
  | keep var _ ih => rw [SectionName.ownWrites_cons, ih, ← SectionName.ownWrites_cons]
  | add var foreign _ ih =>
      rw [SectionName.ownWrites_cons, foreign.ownWrites_eq, List.nil_append, ih]

/-- Writes obstruct no section that fits and that they give no refused value to. -/
theorem SectionName.not_obstructed_iff {s : SectionName} {writes : List (String × String)}
    {x : s.Config} (nonempty : writes ≠ []) : ¬ s.Obstructed toml writes x ↔
      s.Fits x ∧ ∀ field ∈ (OrderedMap.ofList writes).entries, field.1 ∉ s.fieldNames →
        Accepted toml field.2 := by
  simp only [Obstructed, nonempty, ne_eq, not_false_eq_true, true_and, not_or, not_not, not_exists,
    not_and]
  refine and_congr_right fun _ => ?_
  constructor
  · rintro h ⟨key, raw⟩ hfield hforeign
    rw [OrderedMap.mem_entries_iff, OrderedMap.get?_ofList] at hfield
    exact h key raw hforeign hfield
  · intro h key raw hforeign hlatest
    refine h (key, raw) ?_ hforeign
    rw [OrderedMap.mem_entries_iff, OrderedMap.get?_ofList, hlatest]

/-- What foreign writes can do to a section is obstruct it. -/
theorem SectionName.patches_iff {s : SectionName} {writes : List (String × String)}
    {x x' : s.Config} : s.Patches toml writes x x' ↔ ¬ s.Obstructed toml writes x ∧
      s.Patches toml (writes.filter fun write => s.fieldNames.contains write.1) x x' := by
  by_cases hnil : writes = []
  · subst hnil
    simp [Patches, Obstructed]
  · have hown : s.own (.ofList writes) =
        .ofList (writes.filter fun write => s.fieldNames.contains write.1) :=
      OrderedMap.restrict_ofList _ writes
    rw [not_obstructed_iff hnil, Patches, if_neg hnil, patchSection_own, hown, Patches]
    split
    · rename_i hforeign
      rw [hforeign]
      show _ ∧ patchSection toml s x .empty = .ok x' ↔ _
      rw [patchSection_empty]
      tauto
    · constructor
      · rintro ⟨haccepted, hpatched⟩
        exact ⟨⟨(patchSection_eq_ok.mp hpatched).1, haccepted⟩, hpatched⟩
      · rintro ⟨⟨-, haccepted⟩, hpatched⟩
        exact ⟨haccepted, hpatched⟩

/-- The layering makes of a configuration what the variables that name its fields make of
it, if nothing obstructs it. -/
theorem layerWithEnv_iff : layerWithEnv toml c vars = .ok c' ↔ Unobstructed toml c vars ∧
    c'.idp = c.idp ∧ ∀ s : SectionName, s.Patches toml (s.ownWrites vars) (c.get s) (c'.get s) := by
  have hpatched : layerWithEnv toml c vars = .ok c' ↔ c'.idp = c.idp ∧ ∀ s : SectionName,
      s.Patches toml (sectionWrites s.name vars) (c.get s) (c'.get s) := by
    rw [layerWithEnv_eq_ok]
    constructor
    · intro h
      refine ⟨h.idp, fun s => ?_⟩
      rw [SectionName.Patches]
      split
      · rename_i hnil
        exact h.untouched s (if_pos hnil)
      · rename_i hsome
        exact h.patched s _ (if_neg hsome)
    · rintro ⟨hidp, h⟩
      refine ⟨hidp, fun s hs => ?_, fun s own hs => ?_⟩
      · have hnil : sectionWrites s.name vars = [] := by
          by_contra hsome
          rw [if_neg hsome] at hs
          cases hs
        have hs' := h s
        rwa [SectionName.Patches, if_pos hnil] at hs'
      · split at hs
        · cases hs
        · rename_i hsome
          obtain rfl := Option.some.inj hs
          have hs' := h s
          rwa [SectionName.Patches, if_neg hsome] at hs'
  rw [hpatched, forall_congr' fun s => SectionName.patches_iff, forall_and]
  exact and_left_comm

/-- The configuration with given sections. -/
def FileConfig.ofSections (idp : IdpConfig) (sections : (s : SectionName) → s.Config) :
    FileConfig :=
  ⟨sections .server, sections .database, sections .token, sections .policy, sections .vault, idp⟩

theorem FileConfig.get_ofSections (idp : IdpConfig) (sections : (s : SectionName) → s.Config)
    (s : SectionName) : (FileConfig.ofSections idp sections).get s = sections s := by
  cases s <;> rfl

/-- Foreign variables change nothing exactly if, where the variables that name fields are
accepted, they leave it as it was whether a section is obstructed. -/
theorem foreign_inert_iff (adds : AddsForeign vars vars') :
    (layerWithEnv toml c vars').toOption = (layerWithEnv toml c vars).toOption ↔
      (OwnAccepted toml c vars → (Unobstructed toml c vars' ↔ Unobstructed toml c vars)) := by
  have hlayered : ∀ {c'}, layerWithEnv toml c vars' = .ok c' ↔ Unobstructed toml c vars' ∧
      c'.idp = c.idp ∧
        ∀ s : SectionName, s.Patches toml (s.ownWrites vars) (c.get s) (c'.get s) := by
    intro c'
    rw [layerWithEnv_iff]
    simp only [adds.ownWrites_eq]
  constructor
  · intro hsame haccepted
    choose sections hsections using haccepted
    let patched := FileConfig.ofSections c.idp sections
    have hpatched : ∀ s : SectionName,
        s.Patches toml (s.ownWrites vars) (c.get s) (patched.get s) := by
      intro s
      rw [FileConfig.get_ofSections]
      exact hsections s
    have hidp : patched.idp = c.idp := rfl
    constructor
    · intro h
      have hafter := Outcome.toOption_eq_some.mpr (hlayered.mpr ⟨h, hidp, hpatched⟩)
      rw [hsame] at hafter
      exact (layerWithEnv_iff.mp (Outcome.toOption_eq_some.mp hafter)).1
    · intro h
      have hbefore := Outcome.toOption_eq_some.mpr (layerWithEnv_iff.mpr ⟨h, hidp, hpatched⟩)
      rw [← hsame] at hbefore
      exact (hlayered.mp (Outcome.toOption_eq_some.mp hbefore)).1
  · intro h
    apply Option.ext
    intro c'
    rw [Outcome.toOption_eq_some, Outcome.toOption_eq_some, hlayered, layerWithEnv_iff]
    refine and_congr_left fun hpatched => h fun s => ?_
    exact ⟨_, hpatched.2 s⟩

end

/-! ## A variable that stops the program -/

theorem isForeign_unknownSection : IsForeign "PATROCLUS_UNKNOWN_SECTION__FIELD" := by
  refine ⟨by decide +kernel, fun s key h => ?_⟩
  rw [show envTarget "PATROCLUS_UNKNOWN_SECTION__FIELD" = some ("unknown_section", "field") by
    decide +kernel] at h
  have hname : "unknown_section" = s.name := congrArg Prod.fst (Option.some.inj h)
  exact absurd hname (by cases s <;> decide)

theorem isForeign_unknownField : IsForeign "PATROCLUS_SERVER__NO_SUCH_FIELD" := by
  refine ⟨by decide +kernel, fun s key h => ?_⟩
  rw [show envTarget "PATROCLUS_SERVER__NO_SUCH_FIELD" = some ("server", "no_such_field") by
    decide +kernel] at h
  have hkey : "no_such_field" = key := congrArg Prod.snd (Option.some.inj h)
  subst hkey
  cases s <;> decide

/-- A section and a field that do not exist are ignored, the section whatever its value. -/
theorem foreign_inert_iff_harmless :
    (layerWithEnv .refusing .default [("PATROCLUS_UNKNOWN_SECTION__FIELD", "[x]"),
        ("PATROCLUS_SERVER__NO_SUCH_FIELD", "y")]).toOption =
      (layerWithEnv .refusing .default []).toOption := by
  have hafter : Unobstructed .refusing .default [("PATROCLUS_UNKNOWN_SECTION__FIELD", "[x]"),
      ("PATROCLUS_SERVER__NO_SUCH_FIELD", "y")] := by
    intro s hobstructed
    obtain ⟨hwritten, hfits | ⟨key, raw, -, hlatest, hrefused⟩⟩ := hobstructed
    · exact hfits (by cases s <;> decide)
    · cases s with
      | server =>
          rw [show sectionWrites SectionName.server.name _ = [("no_such_field", "y")] by
            decide +kernel] at hlatest
          obtain ⟨rfl, rfl⟩ := Prod.mk.inj (List.mem_singleton.mp (mem_of_latest hlatest))
          exact hrefused ⟨.string "y", rfl⟩
      | _ => exact hwritten (by decide +kernel)
  have hbefore : Unobstructed .refusing .default [] := fun s hobstructed => hobstructed.1 rfl
  exact (foreign_inert_iff (.add _ isForeign_unknownSection
    (.add _ isForeign_unknownField .nil))).mpr fun _ => iff_of_true hafter hbefore

/-- The array of another program in a field that does not exist: the layering, which
succeeds without it, fails. -/
theorem not_foreign_inert :
    IsForeign "PATROCLUS_SERVER__NO_SUCH_FIELD" ∧
    (layerWithEnv .refusing .default []).isOk = true ∧
    (layerWithEnv .refusing .default [("PATROCLUS_SERVER__NO_SUCH_FIELD", "[x]")]).isOk =
      false :=
  ⟨isForeign_unknownField, by decide +kernel, by decide +kernel⟩

end Patroclus
