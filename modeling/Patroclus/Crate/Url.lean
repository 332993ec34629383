import Patroclus.Crate.Text
import Mathlib.Algebra.Order.Ring.Int
import Mathlib.Tactic.MkIffOfInductiveProp

/-!
# Queries of URLs

The query of a URL stands between its first `?` and its first `#`. It is a list of parameters,
separated by `&`, each a name and a value around its first `=`. In an encoded value stand only
the unreserved characters of RFC 3986 and percent triplets, which decode to bytes.
-/

namespace Patroclus

/-- What stands before the first separator. -/
def textBefore (separator : Char) (cs : List Char) : List Char := cs.takeWhile (· != separator)

/-- What stands after the first separator. -/
def textAfter (separator : Char) (cs : List Char) : List Char :=
  (cs.dropWhile (· != separator)).drop 1

def urlQuery (url : List Char) : List Char := textAfter '?' (textBefore '#' url)

/-- The name and the value of a parameter; without a `=` the value is empty. -/
def splitParameter (part : List Char) : List Char × List Char :=
  (textBefore '=' part, textAfter '=' part)

def splitQuery (query : List Char) : List (List Char × List Char) :=
  (query.splitOn '&').map splitParameter

/-- RFC 3986, section 2.3. -/
def isUnreserved (c : Char) : Bool :=
  c.isAlphanum || c == '-' || c == '.' || c == '_' || c == '~'

def hexDigitValue (c : Char) : Option Nat :=
  if c.isDigit then some (c.toNat - 48)
  else if 'A' ≤ c ∧ c ≤ 'F' then some (c.toNat - 55)
  else if 'a' ≤ c ∧ c ≤ 'f' then some (c.toNat - 87)
  else none

/-- Unreserved characters and percent triplets. -/
inductive PercentEncoded : List Char → Prop where
  | nil : PercentEncoded []
  | unreserved {c : Char} {cs : List Char} (h : isUnreserved c = true)
      (rest : PercentEncoded cs) : PercentEncoded (c :: cs)
  | triplet {high low : Char} {cs : List Char} (hhigh : (hexDigitValue high).isSome = true)
      (hlow : (hexDigitValue low).isSome = true) (rest : PercentEncoded cs) :
      PercentEncoded ('%' :: high :: low :: cs)

/-- The bytes of a text, with a percent triplet for one byte. -/
def percentDecode : List Char → Option (List UInt8)
  | [] => some []
  | '%' :: high :: low :: cs => do
      let highValue ← hexDigitValue high
      let lowValue ← hexDigitValue low
      return UInt8.ofNat (16 * highValue + lowValue) :: (← percentDecode cs)
  | ['%'] | ['%', _] => none
  | c :: cs => do return String.utf8EncodeChar c ++ (← percentDecode cs)

/-- Percent-decoding as UTF-8. -/
def percentDecodeUtf8 (value : List Char) : Option String := (percentDecode value).bind fromUtf8

/-- The bytes of a text, where a percent sign before anything but two digits stands for
itself. -/
def percentDecodeLenient : List Char → List UInt8
  | '%' :: high :: low :: cs =>
      match hexDigitValue high, hexDigitValue low with
      | some highValue, some lowValue =>
          UInt8.ofNat (16 * highValue + lowValue) :: percentDecodeLenient cs
      | _, _ => String.utf8EncodeChar '%' ++ percentDecodeLenient (high :: low :: cs)
  | c :: cs => String.utf8EncodeChar c ++ percentDecodeLenient cs
  | [] => []

/-- The query spells exactly these parameters, and its values are encoded. -/
@[mk_iff]
structure Carries (query : List Char) (params : List (String × String)) : Prop where
  decodes : (splitQuery query).map (fun pair =>
      (String.ofList pair.1, percentDecodeUtf8 pair.2)) =
    params.map fun param => (param.1, some param.2)
  encoded : ∀ pair ∈ splitQuery query, PercentEncoded pair.2

section

variable {c d : Char} {cs xs ys query value : List Char} {params : List (String × String)}

/-! ## Splitting -/

theorem textBefore_append (h : d ∉ xs) : textBefore d (xs ++ ys) = xs ++ textBefore d ys := by
  have hall : ∀ c ∈ xs, (c != d) = true := by
    intro c hc
    exact bne_iff_ne.mpr (ne_of_mem_of_not_mem hc h)
  rw [textBefore, List.takeWhile_append_of_pos hall, textBefore]

theorem textBefore_cons : textBefore d (d :: ys) = [] := by simp [textBefore]

theorem textBefore_of_notMem (h : d ∉ xs) : textBefore d xs = xs := by
  have happend : textBefore d (xs ++ []) = xs ++ [] := textBefore_append h
  rwa [List.append_nil] at happend

theorem textAfter_append_cons (h : d ∉ xs) : textAfter d (xs ++ d :: ys) = ys := by
  have hall : ∀ c ∈ xs, (c != d) = true := by
    intro c hc
    exact bne_iff_ne.mpr (ne_of_mem_of_not_mem hc h)
  rw [textAfter, List.dropWhile_append_of_pos hall, List.dropWhile_cons_of_neg (by simp),
    List.drop_one, List.tail_cons]

theorem textBefore_append_of_mem (h : d ∈ xs) : textBefore d (xs ++ ys) = textBefore d xs := by
  obtain ⟨front, back, rfl, hfront⟩ := List.eq_append_cons_of_mem h
  rw [List.append_assoc, List.cons_append, textBefore_append hfront, textBefore_append hfront,
    textBefore_cons, textBefore_cons]

theorem textAfter_append_of_mem (h : d ∈ xs) : textAfter d (xs ++ ys) = textAfter d xs ++ ys := by
  obtain ⟨front, back, rfl, hfront⟩ := List.eq_append_cons_of_mem h
  rw [List.append_assoc, List.cons_append, textAfter_append_cons hfront,
    textAfter_append_cons hfront]

theorem mem_textBefore_or_textAfter (h : c ∈ xs) (hne : c ≠ d) :
    c ∈ textBefore d xs ∨ c ∈ textAfter d xs := by
  by_cases hd : d ∈ xs
  · obtain ⟨front, back, rfl, hfront⟩ := List.eq_append_cons_of_mem hd
    rw [textBefore_append hfront, textBefore_cons, textAfter_append_cons hfront, List.append_nil]
    obtain hmem | hmem := List.mem_append.mp h
    · exact .inl hmem
    · exact .inr (List.mem_of_ne_of_mem hne hmem)
  · rw [textBefore_of_notMem hd]
    exact .inl h

/-- A query without fragment and before any other `?`. -/
theorem urlQuery_append_cons (noFragment : '#' ∉ xs ++ '?' :: ys) (noQuery : '?' ∉ xs) :
    urlQuery (xs ++ '?' :: ys) = ys := by
  rw [urlQuery, textBefore_of_notMem noFragment, textAfter_append_cons noQuery]

/-- A fragment cuts off whatever is appended to it. -/
theorem urlQuery_append_of_fragment (h : '#' ∈ xs) : urlQuery (xs ++ ys) = urlQuery xs := by
  rw [urlQuery, textBefore_append_of_mem h, urlQuery]

/-- To a query that has begun everything is appended. -/
theorem urlQuery_append_of_query (noFragment : '#' ∉ xs ++ ys) (h : '?' ∈ xs) :
    urlQuery (xs ++ ys) = urlQuery xs ++ ys := by
  have hxs : '#' ∉ xs := fun hmem => noFragment (List.mem_append_left ys hmem)
  rw [urlQuery, textBefore_of_notMem noFragment, textAfter_append_of_mem h, urlQuery,
    textBefore_of_notMem hxs]

theorem splitParameter_append {name : List Char} (h : '=' ∉ name) :
    splitParameter (name ++ '=' :: value) = (name, value) := by
  rw [splitParameter, textBefore_append h, textBefore_cons, List.append_nil,
    textAfter_append_cons h]

/-- Joined parameters are found again, where names and values are free of separators. -/
theorem splitQuery_intercalate {pairs : List (List Char × List Char)} (hne : pairs ≠ [])
    (names : ∀ pair ∈ pairs, '&' ∉ pair.1 ∧ '=' ∉ pair.1)
    (values : ∀ pair ∈ pairs, '&' ∉ pair.2) :
    splitQuery (['&'].intercalate (pairs.map fun pair => pair.1 ++ '=' :: pair.2)) = pairs := by
  have hfree : ∀ part ∈ pairs.map (fun pair => pair.1 ++ '=' :: pair.2), '&' ∉ part := by
    intro part hpart
    obtain ⟨pair, hpair, rfl⟩ := List.mem_map.mp hpart
    rw [List.mem_append, List.mem_cons]
    rintro (hname | hequals | hvalue)
    · exact (names pair hpair).1 hname
    · exact absurd hequals (by decide)
    · exact values pair hpair hvalue
  rw [splitQuery, List.splitOn_intercalate '&' hfree (mt List.map_eq_nil_iff.mp hne), List.map_map]
  refine (List.map_congr_left fun pair hpair => ?_).trans (List.map_id pairs)
  exact splitParameter_append (names pair hpair).2

theorem mem_of_mem_intercalate {parts : List (List Char)} (h : c ∈ [d].intercalate parts)
    (hne : c ≠ d) : ∃ part ∈ parts, c ∈ part := by
  induction parts with
  | nil => cases h
  | cons part parts ih =>
      cases parts with
      | nil => exact ⟨part, List.mem_cons_self, by simpa using h⟩
      | cons next parts =>
          rw [List.intercalate_cons_of_ne_nil (List.cons_ne_nil next parts), List.append_assoc,
            List.singleton_append, List.mem_append, List.mem_cons] at h
          obtain hpart | hsep | hrest := h
          · exact ⟨part, List.mem_cons_self, hpart⟩
          · exact absurd hsep hne
          · obtain ⟨found, hfound, hc⟩ := ih hrest
            exact ⟨found, List.mem_cons_of_mem part hfound, hc⟩

/-- Each character of a query is a separator or belongs to a name or a value. -/
theorem mem_splitQuery (h : c ∈ query) (hamp : c ≠ '&') (heq : c ≠ '=') :
    ∃ pair ∈ splitQuery query, c ∈ pair.1 ∨ c ∈ pair.2 := by
  have hjoin : ['&'].intercalate (query.splitOn '&') = query := List.intercalate_splitOn '&'
  rw [← hjoin] at h
  obtain ⟨part, hpart, hc⟩ := mem_of_mem_intercalate h hamp
  exact ⟨splitParameter part, List.mem_map.mpr ⟨part, hpart, rfl⟩,
    mem_textBefore_or_textAfter hc heq⟩

/-! ## Encoded values -/

theorem toNat_lt_of_isUnreserved (h : isUnreserved c = true) : c.toNat < 128 := by
  have hbound {last : Char} (hle : c.val ≤ last.val) (hlast : last.toNat < 128) : c.toNat < 128 :=
    Nat.lt_of_le_of_lt (UInt32.le_iff_toNat_le.mp hle) hlast
  simp only [isUnreserved, Bool.or_eq_true, beq_iff_eq] at h
  obtain (((halphanum | rfl) | rfl) | rfl) | rfl := h
  · obtain halpha | hdigit := (Bool.or_eq_true _ _).mp halphanum
    · obtain hupper | hlower := (Bool.or_eq_true _ _).mp halpha
      · exact hbound (of_decide_eq_true hupper).2 (by decide)
      · exact hbound (of_decide_eq_true ((Bool.and_eq_true _ _).mp hlower).2) (by decide)
    · exact hbound (of_decide_eq_true ((Bool.and_eq_true _ _).mp hdigit).2) (by decide)
  all_goals decide

theorem isUnreserved_of_isAlphanum (h : c.isAlphanum = true) : isUnreserved c = true := by
  rw [isUnreserved, h]
  rfl

theorem isUnreserved_of_hexDigitValue (h : (hexDigitValue c).isSome = true) :
    isUnreserved c = true := by
  apply isUnreserved_of_isAlphanum
  rw [hexDigitValue] at h
  split at h
  · rename_i hdigit
    exact (Bool.or_eq_true _ _).mpr (.inr hdigit)
  · split at h
    · rename_i hrange
      have hupper : c.isUpper = true :=
        decide_eq_true ⟨hrange.1, UInt32.le_trans hrange.2 (by decide)⟩
      exact (Bool.or_eq_true _ _).mpr (.inl ((Bool.or_eq_true _ _).mpr (.inl hupper)))
    · split at h
      · rename_i hrange
        have hlower : c.isLower = true := (Bool.and_eq_true _ _).mpr
          ⟨decide_eq_true hrange.1, decide_eq_true (UInt32.le_trans hrange.2 (by decide))⟩
        exact (Bool.or_eq_true _ _).mpr (.inl ((Bool.or_eq_true _ _).mpr (.inr hlower)))
      · cases h

theorem PercentEncoded.mem (h : PercentEncoded cs) (hc : c ∈ cs) :
    c = '%' ∨ isUnreserved c = true := by
  induction h with
  | nil => cases hc
  | unreserved hfirst _ ih =>
      obtain rfl | hrest := List.mem_cons.mp hc
      · exact .inr hfirst
      · exact ih hrest
  | triplet hhigh hlow _ ih =>
      simp only [List.mem_cons] at hc
      obtain rfl | rfl | rfl | hrest := hc
      · exact .inl rfl
      · exact .inr (isUnreserved_of_hexDigitValue hhigh)
      · exact .inr (isUnreserved_of_hexDigitValue hlow)
      · exact ih hrest

theorem PercentEncoded.ascii (h : PercentEncoded cs) (hc : c ∈ cs) : c.toNat < 128 := by
  obtain rfl | hunreserved := h.mem hc
  · decide
  · exact toNat_lt_of_isUnreserved hunreserved

theorem percentDecode_triplet {high low : Char} {highValue lowValue : Nat}
    (hhigh : hexDigitValue high = some highValue) (hlow : hexDigitValue low = some lowValue) :
    percentDecode ('%' :: high :: low :: cs) =
      (percentDecode cs).map (UInt8.ofNat (16 * highValue + lowValue) :: ·) := by
  rw [percentDecode, hhigh, hlow]
  cases percentDecode cs <;> rfl

theorem percentDecode_cons (hne : c ≠ '%') :
    percentDecode (c :: cs) = (percentDecode cs).map (String.utf8EncodeChar c ++ ·) := by
  rw [percentDecode]
  · cases percentDecode cs <;> rfl
  · intro high low rest hc
    exact absurd hc hne
  · intro hc
    exact absurd hc hne
  · intro high hc
    exact absurd hc hne

/-- Without percent signs, a text stands for itself. -/
theorem percentDecodeLenient_of_notMem (h : '%' ∉ cs) :
    percentDecodeLenient cs = utf8 (String.ofList cs) := by
  induction cs with
  | nil =>
      rw [utf8_ofList, percentDecodeLenient]
      rfl
  | cons c cs ih =>
      have hc : c ≠ '%' := fun heq => h (heq ▸ List.mem_cons_self)
      have hcs : '%' ∉ cs := fun hmem => h (List.mem_cons_of_mem c hmem)
      rw [utf8_ofList, List.flatMap_cons, ← utf8_ofList, ← ih hcs, percentDecodeLenient]
      rintro high low rest rfl
      exact absurd rfl hc

end

end Patroclus
