import Patroclus.Foundation.Words
import Mathlib.Data.List.DropRight
import Mathlib.Data.List.Infix

/-!
# Text operations

The operations of `str` that the handlers apply to claims and to columns.
-/

namespace Patroclus

open Foundation

/-- `char::is_whitespace`: the Unicode property `White_Space`. -/
def isWhitespace (c : Char) : Bool :=
  (0x9 ≤ c.toNat && c.toNat ≤ 0xD) || c.toNat == 0x20 || c.toNat == 0x85 || c.toNat == 0xA0 ||
  c.toNat == 0x1680 || (0x2000 ≤ c.toNat && c.toNat ≤ 0x200A) || c.toNat == 0x2028 ||
  c.toNat == 0x2029 || c.toNat == 0x202F || c.toNat == 0x205F || c.toNat == 0x3000

@[simp] theorem isWhitespace_space : isWhitespace ' ' = true := by decide

/-- `str::split_whitespace`. -/
def splitWhitespace (s : String) : List String := stringWords isWhitespace s

/-- A string that `split_whitespace` reads back as itself. -/
abbrev IsScopeWord (s : String) : Prop := IsStringWord isWhitespace s

/-- `scopes.join(" ")`. -/
def joinScopes (scopes : List String) : String := " ".intercalate scopes

theorem splitWhitespace_joinScopes (scopes : List String) :
    splitWhitespace (joinScopes scopes) = scopes.flatMap splitWhitespace :=
  stringWords_intercalate isWhitespace_space scopes

theorem splitWhitespace_joinScopes_eq_iff (scopes : List String) :
    splitWhitespace (joinScopes scopes) = scopes ↔ ∀ scope ∈ scopes, IsScopeWord scope :=
  stringWords_intercalate_eq_iff isWhitespace_space scopes

theorem isScopeWord_of_mem {word s : String} (h : word ∈ splitWhitespace s) : IsScopeWord word :=
  isStringWord_of_mem_stringWords h

/-- Drop every occurrence of a nonempty pattern, from the left and without
overlaps; `skip` characters of the last one are still to be dropped. -/
def removeAll (pattern : List Char) : List Char → Nat → List Char
  | [], _ => []
  | _ :: cs, skip + 1 => removeAll pattern cs skip
  | c :: cs, 0 =>
      if pattern <+: c :: cs then removeAll pattern cs (pattern.length - 1)
      else c :: removeAll pattern cs 0

section

variable {pattern : List Char}

theorem length_removeAll_le (cs : List Char) (skip : Nat) :
    (removeAll pattern cs skip).length ≤ cs.length := by
  induction cs generalizing skip with
  | nil => exact Nat.le_refl 0
  | cons c cs ih =>
      cases skip with
      | succ skip => exact Nat.le_succ_of_le (ih skip)
      | zero =>
          rw [removeAll]
          split
          · exact Nat.le_succ_of_le (ih _)
          · exact Nat.succ_le_succ (ih 0)

/-- Where the pattern occurs, something is dropped. -/
theorem length_removeAll_lt {cs : List Char} (nonempty : pattern ≠ []) (h : pattern <:+: cs) :
    (removeAll pattern cs 0).length < cs.length := by
  induction cs with
  | nil => exact absurd (List.infix_nil.mp h) nonempty
  | cons c cs ih =>
      rw [removeAll]
      split
      · exact Nat.lt_succ_of_le (length_removeAll_le cs _)
      · rename_i hprefix
        obtain hfirst | hlater := List.infix_cons_iff.mp h
        · exact absurd hfirst hprefix
        · exact Nat.succ_lt_succ (ih hlater)

/-- Only a text without the pattern stays as it is. -/
theorem removeAll_eq_self_iff {cs : List Char} (nonempty : pattern ≠ []) :
    removeAll pattern cs 0 = cs ↔ ¬ pattern <:+: cs := by
  constructor
  · intro heq hinfix
    have hlt := length_removeAll_lt nonempty hinfix
    rw [heq] at hlt
    exact Nat.lt_irrefl _ hlt
  · intro hfree
    induction cs with
    | nil => rfl
    | cons c cs ih =>
        rw [removeAll, if_neg fun hprefix => hfree hprefix.isInfix,
          ih fun hlater => hfree (List.infix_cons hlater)]

theorem removeAll_skip (dropped cs : List Char) :
    removeAll pattern (dropped ++ cs) dropped.length = removeAll pattern cs 0 := by
  induction dropped with
  | nil => rfl
  | cons c dropped ih => exact ih

/-- The pattern is dropped at the beginning, and what follows is treated on its own. -/
theorem removeAll_append {cs : List Char} (nonempty : pattern ≠ []) :
    removeAll pattern (pattern ++ cs) 0 = removeAll pattern cs 0 := by
  obtain ⟨c, rest, rfl⟩ := List.exists_cons_of_ne_nil nonempty
  have hprefix : c :: rest <+: c :: (rest ++ cs) := List.prefix_append (c :: rest) cs
  rw [List.cons_append, removeAll, if_pos hprefix]
  exact removeAll_skip rest cs

end

/-- `s.trim()`. -/
def trim (s : String) : String :=
  String.ofList ((s.toList.dropWhile isWhitespace).rdropWhile isWhitespace)

/-- A text without white space is trimmed already. -/
theorem trim_eq_self {s : String} (h : ∀ c ∈ s.toList, isWhitespace c = false) : trim s = s := by
  have hfront : s.toList.dropWhile isWhitespace = s.toList := by
    cases hchars : s.toList with
    | nil => rfl
    | cons c cs =>
        have hc := h c (by rw [hchars]; exact List.mem_cons_self)
        rw [List.dropWhile_cons_of_neg (by rw [hc]; exact Bool.false_ne_true)]
  have hback : s.toList.rdropWhile isWhitespace = s.toList := by
    rw [List.rdropWhile_eq_self_iff]
    intro hne
    rw [h _ (List.getLast_mem hne)]
    exact Bool.false_ne_true
  rw [trim, hfront, hback, String.ofList_toList]

/-- `s.to_ascii_lowercase()`. -/
def toAsciiLowercase (s : String) : String := String.ofList (s.toList.map Char.toLower)

/-- `s.split_once(separator)`: what stands before and after its first occurrence. -/
def splitOnce (separator : List Char) : List Char → Option (List Char × List Char)
  | [] => none
  | c :: cs =>
      if separator <+: c :: cs then some ([], (c :: cs).drop separator.length)
      else (splitOnce separator cs).map fun (before, after) => (c :: before, after)

/-- The text contains `"user:"`. -/
def MentionsUser (s : String) : Prop := "user:".toList <:+: s.toList

instance (s : String) : Decidable (MentionsUser s) := by
  unfold MentionsUser
  infer_instance

/-- `s.replace("user:", "")`. -/
def withoutUserPrefix (s : String) : String :=
  String.ofList (removeAll "user:".toList s.toList 0)

/-- What is put after a `"user:"` is found again exactly if it contains no other. -/
theorem withoutUserPrefix_append_eq_iff (s : String) :
    withoutUserPrefix ("user:" ++ s) = s ↔ ¬ MentionsUser s := by
  have hpattern : "user:".toList ≠ [] := by decide
  rw [withoutUserPrefix, String.toList_append, removeAll_append hpattern, MentionsUser,
    ← removeAll_eq_self_iff hpattern, ← String.toList_inj, String.toList_ofList]

example : withoutUserPrefix "user:alice@corp" = "alice@corp" := by decide

/-- `s.as_bytes()`. -/
def utf8 (s : String) : List UInt8 := s.toByteArray.data.toList

theorem utf8_append (s t : String) : utf8 (s ++ t) = utf8 s ++ utf8 t := by
  simp [utf8, String.toByteArray_append, ByteArray.data_append]

theorem utf8_injective : Function.Injective utf8 := fun _ _ h =>
  String.toByteArray_inj.mp (ByteArray.ext (Array.toList_inj.mp h))

/-- `String::from_utf8`. -/
def fromUtf8 (bytes : List UInt8) : Option String := String.fromUTF8? ⟨bytes.toArray⟩

@[simp] theorem fromUtf8_utf8 (s : String) : fromUtf8 (utf8 s) = some s :=
  dif_pos s.isValidUTF8

/-- The text of ASCII bytes. -/
def asciiText (bytes : List UInt8) : String :=
  String.ofList (bytes.map fun byte => Char.ofNat byte.toNat)

theorem utf8_ofList (chars : List Char) :
    utf8 (String.ofList chars) = chars.flatMap String.utf8EncodeChar := by
  rw [utf8, String.toByteArray_ofList, List.utf8Encode, List.toList_data_toByteArray]

private theorem encode_ascii : ∀ n < 128,
    String.utf8EncodeChar (Char.ofNat n) = [UInt8.ofNat n] := by decide

theorem utf8EncodeChar_ascii {c : Char} (h : c.toNat < 128) :
    String.utf8EncodeChar c = [UInt8.ofNat c.toNat] := by
  have hencode := encode_ascii c.toNat h
  rwa [Char.ofNat_toNat] at hencode

theorem utf8_of_fromUtf8 {bytes : List UInt8} {s : String} (h : fromUtf8 bytes = some s) :
    utf8 s = bytes := by
  rw [fromUtf8, String.fromUTF8?] at h
  split at h
  · cases h
    rfl
  · cases h

theorem utf8_asciiText {bytes : List UInt8} (h : ∀ byte ∈ bytes, byte.toNat < 128) :
    utf8 (asciiText bytes) = bytes := by
  rw [asciiText, utf8_ofList]
  induction bytes with
  | nil => rfl
  | cons byte bytes ih =>
      have hbyte := encode_ascii byte.toNat (h byte List.mem_cons_self)
      have htail := ih fun next hnext => h next (List.mem_cons_of_mem _ hnext)
      rw [List.map_cons, List.flatMap_cons, hbyte, UInt8.ofNat_toNat, htail, List.singleton_append]

/-! ## Prefixes -/

/-- `s.starts_with(pattern)`. -/
def startsWith (s pattern : String) : Bool := pattern.toList.isPrefixOf s.toList

/-- `s.strip_prefix(pattern)`. -/
def stripPrefix (s pattern : String) : Option String :=
  if startsWith s pattern then some (String.ofList (s.toList.drop pattern.toList.length))
  else none

theorem startsWith_iff {s pattern : String} :
    startsWith s pattern = true ↔ pattern.toList <+: s.toList := List.isPrefixOf_iff_prefix

theorem eq_append_of_stripPrefix {s pattern rest : String} (h : stripPrefix s pattern = some rest) :
    s = pattern ++ rest := by
  rw [stripPrefix] at h
  split at h
  · rename_i hprefix
    obtain ⟨tail, htail⟩ := startsWith_iff.mp hprefix
    obtain rfl := Option.some.inj h
    apply String.toList_inj.mp
    rw [String.toList_append, String.toList_ofList, ← htail, List.drop_left]
  · cases h

end Patroclus
