import Patroclus.Crate.Url
import Patroclus.Idp
import Mathlib.Algebra.Order.BigOperators.Group.List
import Mathlib.Algebra.Order.Ring.Nat

/-!
# The authorization URL

The encoder keeps every alphanumeric character, also those outside ASCII, and of any other
character it prints the lowest byte. So its values come back from the query exactly if they
are ASCII, and the query is the one that was written only if the issuer has begun neither a
query nor a fragment of its own.
-/

namespace Patroclus

open Urlencoding

/-- What the program relies on of `char::is_alphanumeric`. -/
def AsciiAlphanumeric (isAlphanumeric : Char → Bool) : Prop :=
  ∀ c, c.toNat < 128 → isAlphanumeric c = c.isAlphanum

def IsAscii (s : String) : Prop := ∀ c ∈ s.toList, c.toNat < 128

instance (s : String) : Decidable (IsAscii s) :=
  List.decidableBAll (fun c : Char => c.toNat < 128) s.toList

section

variable {isAlphanumeric : Char → Bool} {c d : Char} {cs : List Char} {s : String} {byte : UInt8}

/-! ## One value -/

theorem toList_encode : (encode isAlphanumeric s).toList = s.toList.flatMap fun c =>
    if keeps isAlphanumeric c then [c] else percentTriplet (UInt8.ofNat c.toNat) :=
  String.toList_ofList

theorem keeps_ascii (law : AsciiAlphanumeric isAlphanumeric) (h : c.toNat < 128) :
    keeps isAlphanumeric c = isUnreserved c := by
  rw [keeps, isUnreserved, law c h, Bool.or_right_comm _ (c == '_') (c == '.')]

theorem hexDigitValue_upperHexDigit :
    ∀ n < 16, hexDigitValue (upperHexDigit n) = some n := by decide

theorem isUnreserved_upperHexDigit : ∀ n < 16, isUnreserved (upperHexDigit n) = true := by decide

theorem percentEncoded_percentTriplet (rest : PercentEncoded cs) :
    PercentEncoded (percentTriplet byte ++ cs) := by
  have hbyte := byte.toNat_lt
  have hhigh := hexDigitValue_upperHexDigit (byte.toNat / 16) (by omega)
  have hlow := hexDigitValue_upperHexDigit (byte.toNat % 16) (by omega)
  exact .triplet (by rw [hhigh]; rfl) (by rw [hlow]; rfl) rest

theorem percentDecode_percentTriplet : percentDecode (percentTriplet byte ++ cs) =
    (percentDecode cs).map (byte :: ·) := by
  have hbyte := byte.toNat_lt
  have hhigh := hexDigitValue_upperHexDigit (byte.toNat / 16) (by omega)
  have hlow := hexDigitValue_upperHexDigit (byte.toNat % 16) (by omega)
  have hnumber : 16 * (byte.toNat / 16) + byte.toNat % 16 = byte.toNat := by omega
  have hdecode : percentDecode (percentTriplet byte ++ cs) = (percentDecode cs).map
      (UInt8.ofNat (16 * (byte.toNat / 16) + byte.toNat % 16) :: ·) :=
    percentDecode_triplet hhigh hlow
  rwa [hnumber, UInt8.ofNat_toNat] at hdecode

/-- A reserved character stands in no encoded value. -/
theorem notMem_encode (law : AsciiAlphanumeric isAlphanumeric) (ascii : d.toNat < 128)
    (reserved : isUnreserved d = false) (percent : d ≠ '%') :
    d ∉ (encode isAlphanumeric s).toList := by
  rw [toList_encode, List.mem_flatMap]
  rintro ⟨c, -, hd⟩
  split at hd
  · rename_i hkept
    rw [List.mem_singleton.mp hd] at ascii reserved
    rw [keeps_ascii law ascii, reserved] at hkept
    cases hkept
  · rename_i hdropped
    have hbyte := (UInt8.ofNat c.toNat).toNat_lt
    rw [percentTriplet, List.mem_cons, List.mem_cons, List.mem_singleton] at hd
    obtain rfl | rfl | rfl := hd
    · exact percent rfl
    · rw [isUnreserved_upperHexDigit _ (by omega)] at reserved
      cases reserved
    · rw [isUnreserved_upperHexDigit _ (by omega)] at reserved
      cases reserved

/-- The bytes that a character is encoded for. -/
def encodedBytes (isAlphanumeric : Char → Bool) (c : Char) : List UInt8 :=
  if keeps isAlphanumeric c then String.utf8EncodeChar c else [UInt8.ofNat c.toNat]

theorem percentDecode_encode (law : AsciiAlphanumeric isAlphanumeric) :
    percentDecode (encode isAlphanumeric s).toList =
      some (s.toList.flatMap (encodedBytes isAlphanumeric)) := by
  rw [toList_encode]
  induction s.toList with
  | nil => rfl
  | cons c cs ih =>
      rw [List.flatMap_cons, List.flatMap_cons, encodedBytes]
      split
      · rename_i hkept
        have hpercent : c ≠ '%' := by
          rintro rfl
          rw [keeps_ascii law (by decide)] at hkept
          exact absurd hkept (by decide)
        rw [List.singleton_append, percentDecode_cons hpercent, ih, Option.map_some]
      · rw [percentDecode_percentTriplet, ih, Option.map_some, List.singleton_append]

theorem length_encodedBytes_le :
    (encodedBytes isAlphanumeric c).length ≤ (String.utf8EncodeChar c).length := by
  rw [encodedBytes]
  split
  · exact Nat.le_refl _
  · rw [String.length_utf8EncodeChar]
    exact c.utf8Size_pos

/-- A value comes back exactly if every character is kept or is a single byte. -/
theorem percentDecodeUtf8_encode_iff (law : AsciiAlphanumeric isAlphanumeric) :
    percentDecodeUtf8 (encode isAlphanumeric s).toList = some s ↔
      ∀ c ∈ s.toList, keeps isAlphanumeric c = false → c.toNat < 128 := by
  have hutf8 : utf8 s = s.toList.flatMap String.utf8EncodeChar := by
    rw [← utf8_ofList, String.ofList_toList]
  rw [percentDecodeUtf8, percentDecode_encode law, Option.bind_some]
  constructor
  · intro h c hc hdropped
    have hlength := congrArg List.length (utf8_of_fromUtf8 h)
    rw [hutf8, List.length_flatMap, List.length_flatMap] at hlength
    -- a character that is dropped has one byte left, so the lengths agree only if it had one
    by_contra hwide
    have hsize : 1 < c.utf8Size := by
      have hone : c.utf8Size ≠ 1 := fun hone =>
        hwide (Nat.lt_succ_of_le (UInt32.le_iff_toNat_le.mp (Char.utf8Size_eq_one_iff.mp hone)))
      have hpos := c.utf8Size_pos
      omega
    refine absurd hlength (Nat.ne_of_gt ?_)
    apply List.sum_lt_sum
    · intro c _
      exact length_encodedBytes_le
    · refine ⟨c, hc, ?_⟩
      rw [encodedBytes, hdropped, String.length_utf8EncodeChar]
      exact hsize
  · intro h
    have hbytes : s.toList.flatMap (encodedBytes isAlphanumeric) = utf8 s := by
      rw [hutf8]
      refine List.flatMap_congr fun c hc => ?_
      rw [encodedBytes]
      split
      · rfl
      · rename_i hdropped
        exact (utf8EncodeChar_ascii (h c hc (Bool.eq_false_iff.mpr hdropped))).symm
    rw [hbytes, fromUtf8_utf8]

theorem percentEncoded_encode_iff (law : AsciiAlphanumeric isAlphanumeric) :
    PercentEncoded (encode isAlphanumeric s).toList ↔
      ∀ c ∈ s.toList, keeps isAlphanumeric c = true → c.toNat < 128 := by
  rw [toList_encode]
  constructor
  · intro h c hc hkept
    refine h.ascii (List.mem_flatMap.mpr ⟨c, hc, ?_⟩)
    rw [if_pos hkept]
    exact List.mem_singleton_self c
  · intro h
    generalize s.toList = cs at h ⊢
    induction cs with
    | nil => exact .nil
    | cons c cs ih =>
        have hrest := ih fun next hnext => h next (List.mem_cons_of_mem c hnext)
        rw [List.flatMap_cons]
        split
        · rename_i hkept
          have hunreserved : isUnreserved c = true := by
            rw [← keeps_ascii law (h c List.mem_cons_self hkept), hkept]
          exact .unreserved hunreserved hrest
        · exact percentEncoded_percentTriplet hrest

theorem encode_iff_isAscii (law : AsciiAlphanumeric isAlphanumeric) :
    percentDecodeUtf8 (encode isAlphanumeric s).toList = some s ∧
      PercentEncoded (encode isAlphanumeric s).toList ↔ IsAscii s := by
  rw [percentDecodeUtf8_encode_iff law, percentEncoded_encode_iff law]
  constructor
  · rintro ⟨hdropped, hkept⟩ c hc
    cases hkeeps : keeps isAlphanumeric c with
    | false => exact hdropped c hc hkeeps
    | true => exact hkept c hc hkeeps
  · intro h
    exact ⟨fun c hc _ => h c hc, fun c hc _ => h c hc⟩

/-- A text of unreserved characters is its own encoding. -/
theorem encode_of_unreserved (law : AsciiAlphanumeric isAlphanumeric)
    (h : s.toList.all isUnreserved = true) : encode isAlphanumeric s = s := by
  rw [List.all_eq_true] at h
  rw [← String.toList_inj, toList_encode]
  generalize s.toList = cs at h ⊢
  induction cs with
  | nil => rfl
  | cons c cs ih =>
      have hc := h c List.mem_cons_self
      have hkept : keeps isAlphanumeric c = true := by
        rw [keeps_ascii law (toNat_lt_of_isUnreserved hc), hc]
      have hrest := ih fun next hnext => h next (List.mem_cons_of_mem c hnext)
      rw [List.flatMap_cons, if_pos hkept, hrest, List.singleton_append]

/-! ## The query -/

/-- The parameters as they are written. -/
def encodedParams (isAlphanumeric : Char → Bool) (params : List (String × String)) :
    List (List Char × List Char) :=
  params.map fun param => (param.1.toList, (encode isAlphanumeric param.2).toList)

def writtenQuery (isAlphanumeric : Char → Bool) (params : List (String × String)) : List Char :=
  ['&'].intercalate ((encodedParams isAlphanumeric params).map fun pair => pair.1 ++ '=' :: pair.2)

/-- The seven parameters of the request. -/
def authorizationParams (provider : IdpProvider) (redirectUri state codeChallenge : String) :
    List (String × String) := [
  ("response_type", "code"),
  ("client_id", provider.clientId),
  ("redirect_uri", redirectUri),
  ("scope", IdpFederation.requestedScopes provider),
  ("state", state),
  ("code_challenge", codeChallenge),
  ("code_challenge_method", "S256")]

variable {provider : IdpProvider} {redirectUri state codeChallenge : String}
  {params : List (String × String)}

theorem toList_authorizationUrl (law : AsciiAlphanumeric isAlphanumeric) :
    (IdpFederation.authorizationUrl isAlphanumeric provider redirectUri state
      codeChallenge).toList = provider.issuer.toList ++ "/authorize".toList ++ '?' ::
        writtenQuery isAlphanumeric
          (authorizationParams provider redirectUri state codeChallenge) := by
  have hcode : encode isAlphanumeric "code" = "code" := encode_of_unreserved law (by decide)
  have hmethod : encode isAlphanumeric "S256" = "S256" := encode_of_unreserved law (by decide)
  simp [IdpFederation.authorizationUrl, writtenQuery, encodedParams, authorizationParams, hcode,
    hmethod, List.intercalate]

theorem notMem_names (hc : c ∈ ['&', '=', '#', '/']) :
    ∀ param ∈ authorizationParams provider redirectUri state codeChallenge,
      c ∉ param.1.toList := by
  have hnames : ∀ name ∈ ["response_type", "client_id", "redirect_uri", "scope", "state",
      "code_challenge", "code_challenge_method"],
      (['&', '=', '#', '/'].all fun c => !name.toList.contains c) = true := by
    decide
  intro param hparam
  have hname : param.1 ∈ (authorizationParams provider redirectUri state codeChallenge).map
      Prod.fst := List.mem_map_of_mem hparam
  have hfree := List.all_eq_true.mp (hnames param.1 hname) c hc
  simpa using hfree

theorem hash_notMem_writtenQuery (law : AsciiAlphanumeric isAlphanumeric)
    (names : ∀ param ∈ params, '#' ∉ param.1.toList) :
    '#' ∉ writtenQuery isAlphanumeric params := by
  intro hmem
  obtain ⟨part, hpart, hhash⟩ := mem_of_mem_intercalate hmem (by decide)
  obtain ⟨pair, hpair, rfl⟩ := List.mem_map.mp hpart
  obtain ⟨param, hparam, rfl⟩ := List.mem_map.mp hpair
  simp only [List.mem_append, List.mem_cons] at hhash
  obtain hname | hequals | hvalue := hhash
  · exact names param hparam hname
  · exact absurd hequals (by decide)
  · exact notMem_encode law (by decide) (by decide) (by decide) hvalue

theorem splitQuery_writtenQuery (law : AsciiAlphanumeric isAlphanumeric) (hne : params ≠ [])
    (names : ∀ param ∈ params, '&' ∉ param.1.toList ∧ '=' ∉ param.1.toList) :
    splitQuery (writtenQuery isAlphanumeric params) = encodedParams isAlphanumeric params := by
  apply splitQuery_intercalate
  · exact mt List.map_eq_nil_iff.mp hne
  · intro pair hpair
    obtain ⟨param, hparam, rfl⟩ := List.mem_map.mp hpair
    dsimp only
    exact names param hparam
  · intro pair hpair
    obtain ⟨param, -, rfl⟩ := List.mem_map.mp hpair
    dsimp only
    exact notMem_encode law (by decide) (by decide) (by decide)

/-- Parameters whose names are plain come back, as far as their values are ASCII. -/
theorem carries_writtenQuery_iff (law : AsciiAlphanumeric isAlphanumeric) (hne : params ≠ [])
    (names : ∀ param ∈ params, '&' ∉ param.1.toList ∧ '=' ∉ param.1.toList) :
    Carries (writtenQuery isAlphanumeric params) params ↔ ∀ param ∈ params, IsAscii param.2 := by
  have hcarries : Carries (writtenQuery isAlphanumeric params) params ↔
      (∀ param ∈ params,
        percentDecodeUtf8 (encode isAlphanumeric param.2).toList = some param.2) ∧
      ∀ param ∈ params, PercentEncoded (encode isAlphanumeric param.2).toList := by
    rw [carries_iff, splitQuery_writtenQuery law hne names, encodedParams, List.map_map,
      List.map_inj_left, List.forall_mem_map]
    simp only [Function.comp_apply, String.ofList_toList, Prod.mk.injEq, true_and]
  rw [hcarries, ← forall₂_and]
  exact forall₂_congr fun _ _ => encode_iff_isAscii law

theorem hash_notMem_authorizationUrl (law : AsciiAlphanumeric isAlphanumeric)
    (noFragment : '#' ∉ provider.issuer.toList) (redirectUri state codeChallenge : String) :
    '#' ∉ (IdpFederation.authorizationUrl isAlphanumeric provider redirectUri state
      codeChallenge).toList := by
  rw [toList_authorizationUrl law, List.mem_append, List.mem_append, List.mem_cons]
  rintro ((hissuer | hpath) | hmark | hquery)
  · exact noFragment hissuer
  · exact absurd hpath (by decide)
  · exact absurd hmark (by decide)
  · exact hash_notMem_writtenQuery law (notMem_names (by decide)) hquery

/-- Below an issuer without query and fragment, the query is the one that was written. -/
theorem carries_of_plainIssuer (law : AsciiAlphanumeric isAlphanumeric)
    (noFragment : '#' ∉ provider.issuer.toList) (noQuery : '?' ∉ provider.issuer.toList) :
    Carries (urlQuery (IdpFederation.authorizationUrl isAlphanumeric provider redirectUri state
        codeChallenge).toList)
      (authorizationParams provider redirectUri state codeChallenge) ↔
    ∀ param ∈ authorizationParams provider redirectUri state codeChallenge,
      IsAscii param.2 := by
  have hwhole := hash_notMem_authorizationUrl law noFragment redirectUri state codeChallenge
  have hplain : '?' ∉ provider.issuer.toList ++ "/authorize".toList := by
    rw [List.mem_append]
    exact not_or.mpr ⟨noQuery, by decide⟩
  rw [toList_authorizationUrl law] at hwhole ⊢
  rw [urlQuery_append_cons hwhole hplain]
  apply carries_writtenQuery_iff law (List.cons_ne_nil _ _)
  intro param hparam
  exact ⟨notMem_names (by decide) param hparam, notMem_names (by decide) param hparam⟩

/-- A query with a slash carries no parameters whose names have none. -/
theorem not_carries_of_slash {query : List Char} (hslash : '/' ∈ query)
    (names : ∀ param ∈ params, '/' ∉ param.1.toList) : ¬ Carries query params := by
  rintro ⟨hdecodes, hencoded⟩
  obtain ⟨pair, hpair, hname | hvalue⟩ := mem_splitQuery hslash (by decide) (by decide)
  · have hmem := List.mem_map_of_mem (f := fun pair =>
      (String.ofList pair.1, percentDecodeUtf8 pair.2)) hpair
    rw [hdecodes] at hmem
    obtain ⟨param, hparam, heq⟩ := List.mem_map.mp hmem
    have hnames : param.1.toList = pair.1 := by
      rw [congrArg Prod.fst heq, String.toList_ofList]
    exact names param hparam (hnames ▸ hname)
  · obtain hpercent | hunreserved := (hencoded pair hpair).mem hvalue
    · exact absurd hpercent (by decide)
    · exact absurd hunreserved (by decide)

end

/-! ## Every provider -/

variable (provider : IdpProvider) (redirectUri state codeChallenge : String)

/-- The condition on the inputs. A fragment in the issuer cuts off all that is appended, and
the query is then the issuer's own. -/
def QuerySurvives : Prop :=
  let params := authorizationParams provider redirectUri state codeChallenge
  if '#' ∈ provider.issuer.toList then Carries (urlQuery provider.issuer.toList) params
  else '?' ∉ provider.issuer.toList ∧ ∀ param ∈ params, IsAscii param.2

/-- The query of the authorization URL carries its seven parameters, in values of unreserved
characters and percent triplets, exactly if the issuer has neither a query nor a fragment and
the values are ASCII. -/
theorem authorizationUrl_carries_iff {isAlphanumeric : Char → Bool}
    (law : AsciiAlphanumeric isAlphanumeric) :
    Carries (urlQuery (IdpFederation.authorizationUrl isAlphanumeric provider redirectUri state
        codeChallenge).toList)
      (authorizationParams provider redirectUri state codeChallenge) ↔
    QuerySurvives provider redirectUri state codeChallenge := by
  rw [QuerySurvives]
  split
  · rename_i hfragment
    rw [toList_authorizationUrl law, List.append_assoc, urlQuery_append_of_fragment hfragment]
  · rename_i hfragment
    by_cases hquery : '?' ∈ provider.issuer.toList
    · refine iff_of_false ?_ fun h => h.1 hquery
      -- the path that is appended becomes part of the query that the issuer has begun
      apply not_carries_of_slash _ (notMem_names (by decide))
      have hwhole := hash_notMem_authorizationUrl law hfragment redirectUri state codeChallenge
      rw [toList_authorizationUrl law, List.append_assoc] at hwhole ⊢
      rw [urlQuery_append_of_query hwhole hquery, List.mem_append]
      exact .inr (List.mem_append_left _ (by decide))
    · exact (carries_of_plainIssuer law hfragment hquery).trans (and_iff_right hquery).symm

/-- A client of a provider, over ASCII. -/
theorem authorizationUrl_carries_iff_corp :
    Carries (urlQuery (IdpFederation.authorizationUrl Char.isAlphanum
        ⟨"corp", "https://idp", "client 1", "secret", ["openid"], "groups", []⟩
        "https://auth/v1/idp/callback" "a+b" "c=d").toList)
      (authorizationParams ⟨"corp", "https://idp", "client 1", "secret", ["openid"], "groups", []⟩
        "https://auth/v1/idp/callback" "a+b" "c=d") := by
  refine (authorizationUrl_carries_iff _ _ _ _ fun _ _ => rfl).mpr ?_
  rw [QuerySurvives, if_neg (by decide)]
  exact ⟨by decide, by decide⟩

/-- Whatever the tables say of a character outside ASCII, it does not come back encoded. -/
theorem not_authorizationUrl_carries : ¬ ∃ isAlphanumeric : Char → Bool,
    AsciiAlphanumeric isAlphanumeric ∧
      ∀ (provider : IdpProvider) (redirectUri state codeChallenge : String),
        Carries (urlQuery (IdpFederation.authorizationUrl isAlphanumeric provider redirectUri
            state codeChallenge).toList)
          (authorizationParams provider redirectUri state codeChallenge) := by
  rintro ⟨isAlphanumeric, law, h⟩
  have hcarries := h ⟨"corp", "https://idp", "José", "secret", [], "groups", []⟩
    "https://auth/v1/idp/callback" "state" "challenge"
  have hascii : IsAscii "José" := (carries_of_plainIssuer law (by decide) (by decide)).mp hcarries
    ("client_id", "José") (List.mem_cons_of_mem _ List.mem_cons_self)
  exact absurd hascii (by decide)

end Patroclus
