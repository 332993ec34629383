import Patroclus.Layering

/-!
# Overriding one field

A variable that names a field is to give it the value that its text is the text of. The
layering guesses the type of the value from the text, before it knows the field: a number
and an array are always taken for what they are, and so is a string, unless its text looks
like something else.
-/

namespace Patroclus

open Foundation

/-- The sections are read from a file. -/
def FileConfig.LoadedFromFile (c : FileConfig) : Prop :=
  ∀ s : SectionName, ∃ table, s.deserialize table = .ok (c.get s)

namespace Kind

/-- The text is one of the value: a string itself, the decimal digits of a number, or an
array in TOML. -/
def IsText (toml : Toml.Parser) : (k : Kind) → k.Value → String → Prop
  | .string, s, text => text = s
  | .strings, items, text => isBracketed (trim text) = true ∧
      ∃ document, toml.fromStr ("value = " ++ trim text) = .ok document ∧
        document.get "value" = some (.array (items.map .string))
  | .u16, n, text => text = toString n.toNat
  | .u64, n, text => text = toString n.toNat

/-- The text of a string has no brackets around it, and is neither a number nor a truth
value, when it is trimmed. -/
def Unmistakable : Kind → String → Prop
  | .string, text => isBracketed (trim text) = false ∧ parseI64 (trim text) = none ∧
      isF64 (trim text) = false ∧ parseBool (trim text) = none
  | _, _ => True

end Kind

/-- The name of the variable that overrides a field. -/
def Field.variableName {s : SectionName} {k : Kind} (f : Field s k) : String :=
  envPrefix ++ s.name.toUpper ++ envNestSeparator ++ f.key.toUpper

/-- No variable names one of the sections. -/
def NamesNoSection (vars : List (String × String)) : Prop :=
  ∀ var ∈ vars, ∀ (s : SectionName) (key : String), envTarget var.1 ≠ some (s.name, key)

section

variable {toml : Toml.Parser} {s : SectionName} {k : Kind}

theorem Field.envTarget_variableName (f : Field s k) :
    envTarget f.variableName = some (s.name, f.key) := by
  cases f <;> decide +kernel

/-! ## What a text is taken for -/

theorem isWhitespace_of_isDigit {c : Char} (h : c.isDigit = true) : isWhitespace c = false := by
  rw [Char.isDigit, Bool.and_eq_true, decide_eq_true_eq, decide_eq_true_eq] at h
  have hlow : 48 ≤ c.toNat := UInt32.le_iff_toNat_le.mp h.1
  have hhigh : c.toNat ≤ 57 := UInt32.le_iff_toNat_le.mp h.2
  apply Bool.eq_false_iff.mpr
  intro hspace
  simp only [isWhitespace, Bool.or_eq_true, Bool.and_eq_true, decide_eq_true_eq,
    beq_iff_eq] at hspace
  omega

/-- A decimal number is taken for that number. -/
theorem parseEnvScalar_toString {n : Nat} (h : n < 2 ^ 63) :
    parseEnvScalar toml (toString n) = .ok (.integer (.ofInt n)) := by
  have htext : (toString n).toList = Nat.toDigits 10 n := Nat.toList_repr
  have hdigits : ∀ c ∈ (toString n).toList, c.isDigit = true := by
    rw [htext]
    exact fun c hc => Nat.isDigit_of_mem_toDigits (by decide) (by decide) hc
  have htrim : trim (toString n) = toString n :=
    trim_eq_self fun c hc => isWhitespace_of_isDigit (hdigits c hc)
  have hplain : isBracketed (toString n) = false := by
    apply Bool.eq_false_iff.mpr
    intro hbracketed
    rw [isBracketed, Bool.and_eq_true, beq_iff_eq] at hbracketed
    exact absurd (hdigits '[' (List.mem_of_mem_head? hbracketed.1)) (by decide)
  rw [parseEnvScalar, htrim, hplain, parseI64_toString h]
  rfl

/-- A bracketed text is taken for an array, if it is one. -/
theorem parseEnvScalar_bracketed {text : String} {parsed : Toml.Value}
    (bracketed : isBracketed (trim text) = true) (h : parseEnvScalar toml text = .ok parsed) :
    ∃ items, parsed = .array items := by
  rw [parseEnvScalar] at h
  simp only [bracketed, if_true] at h
  split at h
  · rename_i document hdocument
    have hfirst : (trim text).toList.head? = some '[' := by
      rw [isBracketed, Bool.and_eq_true, beq_iff_eq] at bracketed
      exact bracketed.1
    obtain ⟨items, hitems⟩ := toml.fromStr_array hfirst hdocument
    rw [hitems] at h
    exact ⟨items, (Except.ok.inj h).symm⟩
  · cases h

/-- A text is taken for a string exactly if it cannot be mistaken. -/
theorem parseEnvScalar_string_iff {text string : String} :
    parseEnvScalar toml text = .ok (.string string) ↔
      Kind.string.Unmistakable text ∧ string = text := by
  by_cases hbracketed : isBracketed (trim text) = true
  · refine iff_of_false (fun h => ?_) fun h => Bool.false_ne_true (h.1.1.symm.trans hbracketed)
    obtain ⟨items, hitems⟩ := parseEnvScalar_bracketed hbracketed h
    cases hitems
  · have hplain := Bool.eq_false_iff.mpr hbracketed
    simp only [parseEnvScalar, hplain, Bool.false_eq_true, if_false, Kind.Unmistakable, true_and]
    cases parseI64 (trim text) with
    | some n => simp
    | none =>
        cases isF64 (trim text) with
        | true => simp
        | false =>
            cases parseBool (trim text) with
            | some b => simp
            | none =>
                simp only [Bool.false_eq_true, if_false, Except.ok.injEq, Toml.Value.string.injEq,
                  true_and]
                exact eq_comm

theorem Kind.deserialize_string_eq_ok {field : String} {parsed : Toml.Value} {value : String} :
    Kind.string.deserialize field parsed = .ok value ↔ parsed = .string value := by
  cases parsed <;> simp [Kind.deserialize]

/-- What a text of a value is taken for is read as that value. -/
theorem Kind.parsed_iff {value : k.Value} {text field : String} (fits : k.Fits value)
    (written : k.IsText toml value text) :
    (∃ parsed, parseEnvScalar toml text = .ok parsed ∧ k.deserialize field parsed = .ok value) ↔
      k.Unmistakable text := by
  cases k with
  | string =>
      obtain rfl : text = value := written
      constructor
      · rintro ⟨parsed, hparsed, hread⟩
        obtain rfl := Kind.deserialize_string_eq_ok.mp hread
        exact (parseEnvScalar_string_iff.mp hparsed).1
      · intro h
        exact ⟨.string text, parseEnvScalar_string_iff.mpr ⟨h, rfl⟩, rfl⟩
  | strings =>
      obtain ⟨hbracketed, document, hdocument, hitems⟩ := written
      refine iff_of_true
        ⟨.array (value.map .string), ?_, Kind.deserialize_literal field fits⟩ trivial
      simp only [parseEnvScalar, hbracketed, if_true, hdocument, hitems, Option.getD_some]
  | u16 =>
      obtain rfl : text = toString value.toNat := written
      have hlt := value.toNat_lt
      exact iff_of_true ⟨_, parseEnvScalar_toString (by omega),
        Kind.deserialize_literal field fits⟩ trivial
  | u64 =>
      obtain rfl : text = toString value.toNat := written
      exact iff_of_true ⟨_, parseEnvScalar_toString fits,
        Kind.deserialize_literal field fits⟩ trivial

/-! ## The layering of one variable -/

theorem sectionWrites_eq_nil {vars : List (String × String)} {name : String}
    (h : ∀ var ∈ vars, ∀ key, envTarget var.1 ≠ some (name, key)) :
    sectionWrites name vars = [] := by
  rw [sectionWrites, List.filterMap_eq_nil_iff]
  intro var hvar
  cases htarget : envTarget var.1 with
  | none => rfl
  | some target =>
      obtain ⟨name', key⟩ := target
      have hne : name' ≠ name := by
        rintro rfl
        exact h var hvar key htarget
      exact if_neg hne

/-- One variable for one field patches its section with one value. -/
theorem layerWithEnv_single {c c' : FileConfig} (f : Field s k) {text : String}
    {before after : List (String × String)} (alone : NamesNoSection (before ++ after)) :
    layerWithEnv toml c (before ++ (f.variableName, text) :: after) = .ok c' ↔
      patchConfig toml c (s.name, .ofList [(f.key, text)]) = .ok c' := by
  rw [layerWithEnv_eq_ok, patchConfig_eq_ok]
  have hfields : (fun s' : SectionName =>
      if sectionWrites s'.name (before ++ (f.variableName, text) :: after) = [] then none
      else some (OrderedMap.ofList
        (sectionWrites s'.name (before ++ (f.variableName, text) :: after)))) =
      fun s' => if s'.name = s.name then some (.ofList [(f.key, text)]) else none := by
    funext s'
    have hbefore : sectionWrites s'.name before = [] :=
      sectionWrites_eq_nil fun var hvar => alone var (List.mem_append_left _ hvar) s'
    have hafter : sectionWrites s'.name after = [] :=
      sectionWrites_eq_nil fun var hvar => alone var (List.mem_append_right _ hvar) s'
    have hown : sectionWrites s'.name [(f.variableName, text)] =
        if s.name = s'.name then [(f.key, text)] else [] :=
      sectionWrites_singleton (f.variableName, text) f.envTarget_variableName
    rw [← List.singleton_append, sectionWrites_append, sectionWrites_append, hbefore, hafter, hown,
      List.nil_append, List.append_nil]
    by_cases hname : s.name = s'.name
    · simp only [hname, if_true, List.cons_ne_nil, if_false]
    · simp only [hname, Ne.symm hname, if_true, if_false]
  rw [hfields]

/-- A section that is patched with one value is read back with that value in the field. -/
theorem patchSection_single {c c' : s.Config} {f : Field s k} {text : String} (fits : s.Fits c) :
    patchSection toml s c (.ofList [(f.key, text)]) = .ok c' ↔ ∃ parsed,
      parseEnvScalar toml text = .ok parsed ∧
        ∃ value, k.deserialize f.key parsed = .ok value ∧ c' = f.set value c := by
  have hsome : ((s.table c).get? f.key).isSome = true := by
    rw [f.get?_table]
    rfl
  rw [patchSection_eq_ok, and_iff_right fits]
  show (∃ patched, patchTable toml [(f.key, text)] (s.table c) = .ok patched ∧ _) ↔ _
  simp only [patchTable_cons, hsome, if_true, ← SectionName.deserialize_insert fits]
  constructor
  · rintro ⟨patched, ⟨parsed, hparsed, hpatched⟩, hread⟩
    obtain rfl := Except.ok.inj hpatched
    exact ⟨parsed, hparsed, hread⟩
  · rintro ⟨parsed, hparsed, hread⟩
    exact ⟨_, ⟨parsed, hparsed, rfl⟩, hread⟩

/-- A variable with a text of a value puts that value in its field, and leaves the rest of
the configuration as it is, exactly if the text cannot be mistaken. -/
theorem override_iff {c : FileConfig} (loaded : c.LoadedFromFile) (f : Field s k)
    {value : k.Value} (fits : k.Fits value) {text : String} (written : k.IsText toml value text)
    {before after : List (String × String)} (alone : NamesNoSection (before ++ after)) :
    layerWithEnv toml c (before ++ (f.variableName, text) :: after) =
        .ok (c.set s (f.set value (c.get s))) ↔ k.Unmistakable text := by
  obtain ⟨table, hloaded⟩ := loaded s
  have hsection := SectionName.fits_of_deserialize hloaded
  rw [layerWithEnv_single f alone, patchConfig, SectionName.ofName_eq_some.mpr rfl]
  dsimp only
  rw [Outcome.bind_eq_ok]
  simp only [patchSection_single hsection]
  rw [← Kind.parsed_iff fits written]
  constructor
  · rintro ⟨patched, ⟨parsed, hparsed, value', hvalue, rfl⟩, hset⟩
    have hsame := congrArg (fun c' => f.get (FileConfig.get c' s)) (Except.ok.inj hset)
    simp only [FileConfig.get_set_self, Field.get_set_self] at hsame
    exact ⟨parsed, hparsed, hsame ▸ hvalue⟩
  · rintro ⟨parsed, hparsed, hvalue⟩
    exact ⟨_, ⟨parsed, hparsed, value, hvalue, rfl⟩, rfl⟩

end

/-- An issuer is overridden, next to a variable of another subsystem. -/
theorem override_iff_issuer :
    layerWithEnv .refusing .default ([("PATROCLUS_LOG_FORMAT", "json")] ++
        (Field.issuer.variableName, "https://patroclus.example.com") :: []) =
      .ok (FileConfig.default.set .token
        (Field.issuer.set "https://patroclus.example.com" FileConfig.default.token)) := by
  have hloaded : FileConfig.default.LoadedFromFile := fun s =>
    ⟨s.table (FileConfig.default.get s),
      SectionName.deserialize_table (by cases s <;> decide)⟩
  have halone : NamesNoSection ([("PATROCLUS_LOG_FORMAT", "json")] ++ []) := by
    intro var hvar s key
    obtain rfl := List.mem_singleton.mp hvar
    rw [show envTarget "PATROCLUS_LOG_FORMAT" = none by decide +kernel]
    exact (Option.some_ne_none _).symm
  have hplain : Kind.string.Unmistakable "https://patroclus.example.com" :=
    ⟨by decide +kernel, by decide +kernel, by decide +kernel, by decide +kernel⟩
  exact (override_iff hloaded .issuer trivial rfl halone).mpr hplain

/-- A database that is called 2024: the path cannot be given by a variable. -/
theorem not_override :
    (layerWithEnv .refusing .default [("PATROCLUS_DATABASE__PATH", "2024")]).isOk = false ∧
    layerWithEnv .refusing .default [("PATROCLUS_DATABASE__PATH", "2024")] ≠
      .ok (FileConfig.default.set .database
        (Field.path.set "2024" FileConfig.default.database)) := by
  have hfails : (layerWithEnv .refusing .default [("PATROCLUS_DATABASE__PATH", "2024")]).isOk =
      false := by decide +kernel
  refine ⟨hfails, fun h => ?_⟩
  rw [h] at hfails
  cases hfails

end Patroclus
