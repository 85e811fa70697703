import Interview.Proofs.Utf8Forms
import Interview.Route.Query
import Mathlib.Data.List.Basic
import Mathlib.Data.List.TakeWhile

/-!
# Reading queries back

An encoded component can be read back: an escape stands for its byte, every other character for
itself (`Percent.octets_encode`), and the bytes spell the text (`Percent.decode?_encode`). Among its
characters are neither the `&` that stands between parameters nor the `=` between a name and its
value. So the parameters can be read off a query (`Route.readQuery?_query`), and off an address
whose route is known or has no question mark. Main statement: no two lists of parameters have the
same query (`Route.query_tells_parameters`).
-/

namespace Interview

namespace Text.Percent

variable {s : String} {c : Char}

/-! ## Encoding byte by byte -/

/-- What a byte is written as: a plain character if it spells one, and else an escape. -/
def encodeByte (byte : UInt8) : List Char :=
  if isPlain (Char.ofNat byte.toNat) then [Char.ofNat byte.toNat] else escape byte

/-- Letters and digits are ASCII. -/
theorem toNat_lt_of_isAlphanum (h : c.isAlphanum = true) : c.toNat < 0x80 := by
  have hlt {last : UInt32} (hlast : last.toNat < 0x80) (hc : c.val ≤ last) : c.toNat < 0x80 :=
    Nat.lt_of_le_of_lt (UInt32.le_iff_toNat_le.mp hc) hlast
  rcases (Bool.or_eq_true ..).mp h with halpha | hdigit
  · rcases (Bool.or_eq_true ..).mp halpha with hupper | hlower
    · exact hlt (by decide) (of_decide_eq_true hupper).2
    · exact hlt (by decide) (of_decide_eq_true ((Bool.and_eq_true ..).mp hlower).2)
  · exact hlt (by decide) (of_decide_eq_true ((Bool.and_eq_true ..).mp hdigit).2)

/-- Plain characters are ASCII. -/
theorem toNat_lt_of_isPlain (h : isPlain c = true) : c.toNat < 0x80 := by
  have hmarks : ∀ d ∈ "-_.!~*'()".toList, d.toNat < 0x80 := by simp
  rcases (Bool.or_eq_true ..).mp h with halphanum | hmark
  · exact toNat_lt_of_isAlphanum halphanum
  · exact hmarks c (List.contains_iff_mem.mp hmark)

theorem toNat_ofNat_byte (byte : UInt8) : (Char.ofNat byte.toNat).toNat = byte.toNat := by
  have hbyte : byte.toNat < 256 := byte.toNat_lt
  unfold Char.ofNat
  rw [dif_pos (Or.inl (by omega))]
  rfl

theorem encodeByte_of_le {byte : UInt8} (h : 0x80 ≤ byte.toNat) :
    encodeByte byte = escape byte := by
  refine if_neg fun hplain => ?_
  have hlt := toNat_lt_of_isPlain hplain
  rw [toNat_ofNat_byte] at hlt
  omega

/-- The bytes of a character are encoded one by one. -/
theorem encodeChar_eq (c : Char) : encodeChar c = (String.utf8EncodeChar c).flatMap encodeByte := by
  by_cases hascii : c.toNat < 0x80
  · have hcode : Char.ofNat (UInt8.ofNat c.toNat).toNat = c := by
      rw [UInt8.toNat_ofNat_of_lt' (show c.toNat < 256 by omega), Char.ofNat_toNat]
    unfold encodeChar encodeByte
    rw [Utf8.utf8EncodeChar_of_lt hascii, List.flatMap_singleton, List.flatMap_singleton, hcode]
  · have hplain : ¬ isPlain c = true := fun h => hascii (toNat_lt_of_isPlain h)
    unfold encodeChar
    rw [if_neg hplain]
    refine List.flatMap_congr fun byte hbyte => ?_
    have hlarge := Utf8.le_of_mem_utf8EncodeChar (Nat.le_of_not_lt hascii) hbyte
    exact (encodeByte_of_le hlarge).symm

/-- The bytes of a text are encoded one by one. -/
theorem toList_encode (s : String) : (encode s).toList = (Utf8.encode s).flatMap encodeByte := by
  rw [encode, String.toList_ofList, Utf8.encode, List.flatMap_assoc]
  exact List.flatMap_congr fun c _ => encodeChar_eq c

/-! ## Encoded components -/

/-- The number that an upper-case hexadecimal digit stands for. -/
def hexValue (c : Char) : Nat :=
  if c.isDigit then c.toNat - 48 else c.toNat - 55

/-- The bytes that an encoded text stands for. -/
def octets : List Char → List UInt8
  | [] => []
  | '%' :: high :: low :: rest => UInt8.ofNat (16 * hexValue high + hexValue low) :: octets rest
  | c :: rest => UInt8.ofNat c.toNat :: octets rest

/-- The text that an encoded text stands for. -/
def decode? (encoded : List Char) : Option String :=
  (Utf8.decode? (octets encoded)).map String.ofList

theorem hexValue_hexDigit : ∀ n < 16, hexValue (hexDigit n) = n := by decide

theorem isPlain_hexDigit : ∀ n < 16, isPlain (hexDigit n) = true := by decide

theorem octets_escape (byte : UInt8) (rest : List Char) :
    octets (escape byte ++ rest) = byte :: octets rest := by
  have hbyte : byte.toNat < 256 := byte.toNat_lt
  have hhigh : hexValue (hexDigit (byte.toNat / 16)) = byte.toNat / 16 :=
    hexValue_hexDigit _ (by omega)
  have hlow : hexValue (hexDigit (byte.toNat % 16)) = byte.toNat % 16 :=
    hexValue_hexDigit _ (by omega)
  have hvalue : 16 * (byte.toNat / 16) + byte.toNat % 16 = byte.toNat := by omega
  simp only [escape, List.cons_append, List.nil_append, octets, hhigh, hlow, hvalue,
    UInt8.ofNat_toNat]

theorem octets_encodeByte (byte : UInt8) (rest : List Char) :
    octets (encodeByte byte ++ rest) = byte :: octets rest := by
  unfold encodeByte
  split
  · next hplain =>
    -- a character that stands for itself does not begin an escape
    have hc : Char.ofNat byte.toNat ≠ '%' := by
      intro heq
      rw [heq] at hplain
      exact absurd hplain (by decide)
    rw [List.singleton_append, octets, toNat_ofNat_byte, UInt8.ofNat_toNat]
    intro high low rest heq
    exact absurd heq hc
  · exact octets_escape byte rest

/-- An encoded text stands for the bytes of the text. -/
theorem octets_encode (s : String) : octets (encode s).toList = Utf8.encode s := by
  rw [toList_encode]
  induction Utf8.encode s with
  | nil => rfl
  | cons byte bytes ih => rw [List.flatMap_cons, octets_encodeByte, ih]

/-- An encoded text is read as the text. -/
theorem decode?_encode (s : String) : decode? (encode s).toList = some s := by
  rw [decode?, octets_encode, Utf8.decode?_encode, Option.map_some, String.ofList_toList]

theorem encode_injective : Function.Injective encode := by
  intro s t h
  have hread : decode? (encode s).toList = decode? (encode t).toList := by rw [h]
  rw [decode?_encode, decode?_encode] at hread
  exact Option.some.inj hread

/-- The characters of an encoded text stand for themselves or belong to an escape. -/
theorem isPlain_of_mem_encode (h : c ∈ (encode s).toList) : isPlain c = true ∨ c = '%' := by
  rw [toList_encode] at h
  obtain ⟨byte, -, hbyte⟩ := List.mem_flatMap.mp h
  unfold encodeByte at hbyte
  split at hbyte
  · next hplain =>
    obtain rfl := List.mem_singleton.mp hbyte
    exact .inl hplain
  · have hlt : byte.toNat < 256 := byte.toNat_lt
    simp only [escape, List.mem_cons, List.not_mem_nil, or_false] at hbyte
    rcases hbyte with rfl | rfl | rfl
    · exact .inr rfl
    · exact .inl (isPlain_hexDigit _ (by omega))
    · exact .inl (isPlain_hexDigit _ (by omega))

/-- A character that is neither plain nor part of an escape can separate encoded texts. -/
theorem not_mem_encode (hplain : isPlain c = false) (hc : c ≠ '%') : c ∉ (encode s).toList := by
  intro h
  rcases isPlain_of_mem_encode h with hmem | rfl
  · exact absurd (hmem.symm.trans hplain) (by decide)
  · exact hc rfl

end Text.Percent

namespace Route

open Text

variable {ps qs : List (String × String)} {route : String}

/-! ## Parameters -/

/-- A parameter as a query writes it. -/
def assignment (parameter : String × String) : List Char :=
  (Percent.encode parameter.1).toList ++ '=' :: (Percent.encode parameter.2).toList

/-- The parameter that a piece of a query stands for. -/
def readAssignment? (piece : List Char) : Option (String × String) :=
  match piece.splitOn '=' with
  | [name, value] => do return (← Percent.decode? name, ← Percent.decode? value)
  | _ => none

/-- The parameters that a query stands for. -/
def readQuery? (query : List Char) : Option (List (String × String)) :=
  if query = [] then some [] else (query.splitOn '&').mapM readAssignment?

theorem splitOn_assignment (p : String × String) :
    (assignment p).splitOn '=' = [(Percent.encode p.1).toList, (Percent.encode p.2).toList] := by
  have hequals (s : String) : '=' ∉ (Percent.encode s).toList :=
    Percent.not_mem_encode (by decide) (by decide)
  have hjoined : assignment p =
      ['='].intercalate [(Percent.encode p.1).toList, (Percent.encode p.2).toList] := by
    simp [assignment, List.intercalate]
  rw [hjoined]
  refine List.splitOn_intercalate _ (fun piece hpiece => ?_) (List.cons_ne_nil _ _)
  rcases List.mem_pair.mp hpiece with heq | heq
  · rw [heq]
    exact hequals p.1
  · rw [heq]
    exact hequals p.2

theorem readAssignment?_assignment (p : String × String) :
    readAssignment? (assignment p) = some p := by
  unfold readAssignment?
  rw [splitOn_assignment]
  simp only [Percent.decode?_encode]
  rfl

theorem ampersand_not_mem_assignment (p : String × String) : '&' ∉ assignment p := by
  have hcomponent (s : String) : '&' ∉ (Percent.encode s).toList :=
    Percent.not_mem_encode (by decide) (by decide)
  rw [assignment, List.mem_append, List.mem_cons]
  rintro (h | h | h)
  · exact hcomponent _ h
  · exact absurd h (by decide)
  · exact hcomponent _ h

theorem toList_query (ps : List (String × String)) :
    (query ps).toList = ['&'].intercalate (ps.map assignment) := by
  have hpiece (p : String × String) :
      (Percent.encode p.1 ++ "=" ++ Percent.encode p.2).toList = assignment p := by
    simp [assignment]
  rw [query, String.toList_intercalate, List.map_map]
  exact congrArg _ (List.map_congr_left fun p _ => hpiece p)

/-- Splitting a query at its separators gives the parameters as written. -/
theorem splitOn_query (h : ps ≠ []) : (query ps).toList.splitOn '&' = ps.map assignment := by
  rw [toList_query]
  refine List.splitOn_intercalate _ (fun piece hpiece => ?_) (by simpa using h)
  obtain ⟨p, -, rfl⟩ := List.mem_map.mp hpiece
  exact ampersand_not_mem_assignment p

theorem query_eq_empty_iff : query ps = "" ↔ ps = [] := by
  constructor
  · intro h
    cases ps with
    | nil => rfl
    | cons p ps =>
      have hpieces := splitOn_query (List.cons_ne_nil p ps)
      rw [h] at hpieces
      have hfirst : assignment p = [] := (List.cons.inj hpieces).1.symm
      simp [assignment] at hfirst
  · rintro rfl
    rfl

theorem mapM_readAssignment? (ps : List (String × String)) :
    (ps.map assignment).mapM readAssignment? = some ps := by
  induction ps with
  | nil => rfl
  | cons p ps ih =>
    rw [List.map_cons, List.mapM_cons, readAssignment?_assignment, ih]
    rfl

/-- The parameters of a query are read back. -/
theorem readQuery?_query (ps : List (String × String)) :
    readQuery? (query ps).toList = some ps := by
  unfold readQuery?
  by_cases hps : ps = []
  · rw [hps]
    rfl
  · have hne : (query ps).toList ≠ [] := by
      rw [ne_eq, String.toList_eq_nil_iff, query_eq_empty_iff]
      exact hps
    rw [if_neg hne, splitOn_query hps, mapM_readAssignment?]

/-- A query tells its parameters. -/
theorem query_injective : Function.Injective query := by
  intro ps qs h
  have hread : readQuery? (query ps).toList = readQuery? (query qs).toList := by rw [h]
  rw [readQuery?_query, readQuery?_query] at hread
  exact Option.some.inj hread

/-! ## Addresses -/

theorem withQuery_nil (route : String) : withQuery route [] = route := rfl

theorem withQuery_of_ne_nil (h : ps ≠ []) : withQuery route ps = route ++ "?" ++ query ps :=
  if_neg h

/-- A parameter makes an address longer. -/
theorem withQuery_eq_self_iff : withQuery route ps = route ↔ ps = [] := by
  constructor
  · intro h
    by_contra hps
    have hlength := congrArg String.length h
    rw [withQuery_of_ne_nil hps, String.length_append, String.length_append] at hlength
    have hmark : "?".length = 1 := rfl
    omega
  · rintro rfl
    rfl

/-- Under one route an address tells its parameters. -/
theorem withQuery_injective (route : String) : Function.Injective (withQuery route) := by
  intro ps qs h
  by_cases hps : ps = []
  · rw [hps, withQuery_nil, eq_comm, withQuery_eq_self_iff] at h
    rw [hps, h]
  · have hqs : qs ≠ [] := by rwa [ne_eq, ← withQuery_eq_self_iff, ← h, withQuery_eq_self_iff]
    rw [withQuery_of_ne_nil hps, withQuery_of_ne_nil hqs] at h
    exact query_injective (String.append_right_inj _ |>.mp h)

/-- The route and the parameters of an address, which its first question mark divides. -/
def readAddress? (address : String) : Option (String × List (String × String)) :=
  (readQuery? ((address.toList.dropWhile (· ≠ '?')).drop 1)).map fun parameters =>
    (String.ofList (address.toList.takeWhile (· ≠ '?')), parameters)

/-- An address whose route has no question mark is read back. -/
theorem readAddress?_withQuery (h : '?' ∉ route.toList) (ps : List (String × String)) :
    readAddress? (withQuery route ps) = some (route, ps) := by
  have hroute : ∀ c ∈ route.toList, decide (c ≠ '?') = true := by
    intro c hc
    refine decide_eq_true ?_
    rintro rfl
    exact h hc
  unfold readAddress?
  by_cases hps : ps = []
  · rw [hps, withQuery_nil, List.takeWhile_eq_self_iff.mpr hroute,
      List.dropWhile_eq_nil_iff.mpr hroute, String.ofList_toList]
    rfl
  · have haddress : (withQuery route ps).toList = route.toList ++ '?' :: (query ps).toList := by
      rw [withQuery_of_ne_nil hps]
      simp
    rw [haddress, List.takeWhile_append_of_pos hroute, List.dropWhile_append_of_pos hroute,
      List.takeWhile_cons_of_neg (by decide), List.dropWhile_cons_of_neg (by decide),
      List.drop_one, List.tail_cons, readQuery?_query, List.append_nil, String.ofList_toList]
    rfl

/-- **A query tells its parameters**: they are read off it, so no two lists have the same query. An
address tells them if its route is known, and the route as well if that has no question mark. No two
texts have the same encoded form, which consists of letters, digits and marks and the sign of an
escape; it is written byte by byte, each byte that spells no plain character as an escape. -/
theorem query_tells_parameters :
    (∀ ps, readQuery? (query ps).toList = some ps) ∧ Function.Injective query ∧
    (∀ route, Function.Injective (withQuery route)) ∧
    (∀ route ps, '?' ∉ route.toList → readAddress? (withQuery route ps) = some (route, ps)) ∧
    Function.Injective Percent.encode ∧
    ∀ s, (Percent.encode s).toList = (Utf8.encode s).flatMap Percent.encodeByte ∧
      ∀ c ∈ (Percent.encode s).toList, c.isAlphanum = true ∨ c ∈ "-_.!~*'()%".toList := by
  refine ⟨readQuery?_query, query_injective, withQuery_injective,
    fun _ ps h => readAddress?_withQuery h ps, Percent.encode_injective, fun s => ?_⟩
  refine ⟨Percent.toList_encode s, fun c hc => ?_⟩
  rcases Percent.isPlain_of_mem_encode hc with hplain | rfl
  · unfold Percent.isPlain at hplain
    rw [Bool.or_eq_true] at hplain
    refine hplain.imp_right fun hmark => ?_
    have hmarks : "-_.!~*'()%".toList = "-_.!~*'()".toList ++ ['%'] := by decide
    rw [hmarks]
    exact List.mem_append_left _ (List.contains_iff_mem.mp hmark)
  · exact .inr (by decide)

/-- Separators within a name or a value do no harm, and an empty parameter is not lost. -/
theorem query_tells_parameters_household :
    let parameters := [("/people", "ann & bob=é"), ("", ""), ("reviewMode", "true")]
    '?' ∉ "/flow/you/family/name".toList ∧
    withQuery "/flow/you/family/name" parameters =
      "/flow/you/family/name?%2Fpeople=ann%20%26%20bob%3D%C3%A9&=&reviewMode=true" ∧
    readAddress? "/flow/you/family/name?%2Fpeople=ann%20%26%20bob%3D%C3%A9&=&reviewMode=true" =
      some ("/flow/you/family/name", parameters) ∧
    query [("", "")] ≠ query [] := by
  intro parameters
  obtain ⟨-, hinjective, -, hread, -⟩ := query_tells_parameters
  have hroute : '?' ∉ "/flow/you/family/name".toList := by decide
  have haddress : withQuery "/flow/you/family/name" parameters =
      "/flow/you/family/name?%2Fpeople=ann%20%26%20bob%3D%C3%A9&=&reviewMode=true" := by
    decide +kernel
  refine ⟨hroute, haddress, ?_, hinjective.ne (List.cons_ne_nil _ _)⟩
  rw [← haddress]
  exact hread _ parameters hroute

end Route

end Interview
