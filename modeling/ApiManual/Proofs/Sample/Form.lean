import ApiManual.Json.Token
import ApiManual.Proofs.Text.Search
import ApiManual.Sample.Request

/-!
# Reading query strings

The query string of an address is read the other way round: into parts at `&`, into name and value at the first
`=`, with plus signs for blanks and `%` before the digits of a byte. `queryValues_fullUrl`: of a sample's address
these are the values of the address itself and then the texts of its query, one for each pair.

* `formText?`, `queryValues`: how a form and an address are read.
* `formText?_formEncodeText`: an encoded text is read as it was.
* `TakesQuery`: the addresses behind which a query is read on its own.
-/

namespace ApiManual

open Text
open Json.Token (hexValue?)

/-! ## Reading a form -/

/-- The bytes of a text in a form. A `%` without two digits stands for itself. -/
def formBytes : List Char → List UInt8
  | [] => []
  | '%' :: a :: b :: cs => match hexValue? a, hexValue? b with
    | some high, some low => UInt8.ofNat (16 * high + low) :: formBytes cs
    | _, _ => String.utf8EncodeChar '%' ++ formBytes (a :: b :: cs)
  | c :: cs => String.utf8EncodeChar (if c = '+' then ' ' else c) ++ formBytes cs

/-- The text in a form, if its bytes are UTF-8. -/
def formText? (cs : List Char) : Option String := String.fromUTF8? (formBytes cs).toByteArray

/-- The value in one part of a query string. -/
def pieceValue? (piece : List Char) : Option String :=
  match piece.dropWhile (· != '=') with
  | [] => none
  | _ :: value => formText? value

/-- The query string of an address: what stands between `?` and `#`. -/
def queryPart? (url : List Char) : Option (List Char) :=
  match (url.takeWhile (· != '#')).dropWhile (· != '?') with
  | [] => none
  | _ :: query => some query

/-- The values in a query string. -/
def formValues (query : List Char) : List String := (splitOn '&' query).filterMap pieceValue?

/-- The values in the query string of an address. -/
def queryValues (url : String) : List String := ((queryPart? url.toList).map formValues).getD []

/-! ## Encoded texts -/

theorem hexValue?_upperDigit : ∀ d < 16, hexValue? (Nat.digitChar d).toUpper = some d := by decide

theorem formBytes_percentByte (b : UInt8) (cs : List Char) : formBytes (percentByte b ++ cs) = b :: formBytes cs := by
  have hb : b.toNat < 256 := b.toNat_lt
  have hhigh := hexValue?_upperDigit (b.toNat / 16) (by omega)
  have hlow := hexValue?_upperDigit (b.toNat % 16) (by omega)
  rw [percentByte, List.cons_append, List.cons_append, List.cons_append, List.nil_append, formBytes, hhigh, hlow]
  simp only [Nat.div_add_mod, UInt8.ofNat_toNat]

theorem formBytes_flatMap_percentByte (bytes : List UInt8) (cs : List Char) :
    formBytes (bytes.flatMap percentByte ++ cs) = bytes ++ formBytes cs := by
  induction bytes with
  | nil => rfl
  | cons b bytes ih => rw [List.flatMap_cons, List.append_assoc, formBytes_percentByte, ih, List.cons_append]

theorem formBytes_cons {c : Char} (hc : c ≠ '%') (cs : List Char) :
    formBytes (c :: cs) = String.utf8EncodeChar (if c = '+' then ' ' else c) ++ formBytes cs := by
  rw [formBytes]
  intro a b rest heq
  exact absurd heq hc

theorem formBytes_formEncodeChar (c : Char) (cs : List Char) :
    formBytes (formEncodeChar c ++ cs) = String.utf8EncodeChar c ++ formBytes cs := by
  unfold formEncodeChar
  split_ifs with hplain hspace
  · have hpercent : c ≠ '%' := by rintro rfl; exact absurd hplain (by decide)
    have hplus : c ≠ '+' := by rintro rfl; exact absurd hplain (by decide)
    rw [List.singleton_append, formBytes_cons hpercent, if_neg hplus]
  · rw [List.singleton_append, formBytes_cons (by decide), if_pos rfl, hspace]
  · exact formBytes_flatMap_percentByte _ cs

theorem formBytes_formEncodeText (s : String) :
    formBytes (formEncodeText s) = s.toList.flatMap String.utf8EncodeChar := by
  unfold formEncodeText
  induction s.toList with
  | nil => rfl
  | cons c cs ih => rw [List.flatMap_cons, formBytes_formEncodeChar, ih, List.flatMap_cons]

theorem utf8_toList (s : String) : (s.toList.flatMap String.utf8EncodeChar).toByteArray = s.toByteArray := by
  conv => rhs; rw [← String.ofList_toList (s := s)]
  rfl

/-- An encoded text is read as it was. -/
theorem formText?_formEncodeText (s : String) : formText? (formEncodeText s) = some s := by
  unfold formText?
  rw [formBytes_formEncodeText, utf8_toList]
  exact dif_pos s.isValidUTF8

/-! ## Pairs -/

theorem formEncodeChar_plain (c : Char) : ∀ d ∈ formEncodeChar c, isUnreserved d = true ∨ d ∈ ['+', '%'] := by
  have hdigit : ∀ n < 16, isUnreserved (Nat.digitChar n).toUpper = true := by decide
  intro d hd
  unfold formEncodeChar at hd
  split_ifs at hd with hplain hspace
  · exact .inl (List.mem_singleton.mp hd ▸ hplain)
  · exact .inr (List.mem_singleton.mp hd ▸ List.mem_cons_self)
  · obtain ⟨b, -, hd⟩ := List.mem_flatMap.mp hd
    have hb : b.toNat < 256 := b.toNat_lt
    simp only [percentByte, List.mem_cons, List.not_mem_nil, or_false] at hd
    obtain rfl | rfl | rfl := hd
    · exact .inr (by simp)
    · exact .inl (hdigit _ (by omega))
    · exact .inl (hdigit _ (by omega))

/-- None of the marks of an address stands in an encoded text. -/
theorem notMem_formEncodeText {mark : Char} (hmark : mark ∈ ['&', '=', '?', '#']) (s : String) :
    mark ∉ formEncodeText s := by
  intro hmem
  obtain ⟨c, -, hc⟩ := List.mem_flatMap.mp hmem
  have hplain := formEncodeChar_plain c mark hc
  simp only [List.mem_cons, List.not_mem_nil, or_false] at hmark
  obtain rfl | rfl | rfl | rfl := hmark <;> exact absurd hplain (by decide)

/-- A pair of name and text in a form. -/
def formPair (pair : String × String) : List Char := formEncodeText pair.1 ++ '=' :: formEncodeText pair.2

theorem formEncode_eq (values : Entries Json) :
    formEncode values = String.ofList (joinWith ['&'] ((queryPairs values).map formPair)) := rfl

/-- Text without `=` in front of a part makes no difference to its value. -/
theorem pieceValue?_append {lead : List Char} (hlead : '=' ∉ lead) (piece : List Char) :
    pieceValue? (lead ++ piece) = pieceValue? piece := by
  have hdrop : ∀ c ∈ lead, (c != '=') = true := by
    intro c hc
    simpa using fun heq : c = '=' => hlead (heq ▸ hc)
  unfold pieceValue?
  rw [List.dropWhile_append_of_pos hdrop]

theorem pieceValue?_of_notMem {piece : List Char} (h : '=' ∉ piece) : pieceValue? piece = none := by
  simpa [pieceValue?] using pieceValue?_append h []

theorem pieceValue?_formPair (pair : String × String) : pieceValue? (formPair pair) = some pair.2 := by
  unfold formPair
  rw [pieceValue?_append (notMem_formEncodeText (by simp) pair.1)]
  exact formText?_formEncodeText pair.2

theorem notMem_formPair {mark : Char} (hmark : mark ∈ ['&', '?', '#']) (pair : String × String) :
    mark ∉ formPair pair := by
  have hmarks : mark ∈ ['&', '=', '?', '#'] := List.Sublist.subset (by decide) hmark
  have hne : mark ≠ '=' := by
    rintro rfl
    exact absurd hmark (by decide)
  simp [formPair, notMem_formEncodeText hmarks, hne]

/-! ## Parts of a query string -/

/-- The parts of a text and of one behind it: the last part goes on in the first one. -/
theorem splitOn_append (separator : Char) (cs ds : List Char) : ∃ front last first rest,
    splitOn separator cs = front ++ [last] ∧ splitOn separator ds = first :: rest ∧
      splitOn separator (cs ++ ds) = front ++ (last ++ first) :: rest := by
  induction cs with
  | nil =>
    cases hds : splitOn separator ds with
    | nil => exact absurd (splitOn_eq separator ds ▸ hds) (List.splitOn_ne_nil separator ds)
    | cons first rest => exact ⟨[], [], first, rest, rfl, rfl, hds⟩
  | cons c cs ih =>
    obtain ⟨front, last, first, rest, hcs, hds, hwhole⟩ := ih
    rw [List.cons_append, splitOn, splitOn, hcs, hwhole]
    by_cases hc : c = separator
    · rw [if_pos hc, if_pos hc]
      exact ⟨[] :: front, last, first, rest, rfl, hds, rfl⟩
    · rw [if_neg hc, if_neg hc]
      cases front with
      | nil => exact ⟨[], c :: last, first, rest, rfl, hds, rfl⟩
      | cons part front => exact ⟨(c :: part) :: front, last, first, rest, rfl, hds, rfl⟩

/-- A query string ends in a part without a value. -/
def EndsFree (query : List Char) : Prop := ∀ piece ∈ (splitOn '&' query).getLast?, '=' ∉ piece

instance (query : List Char) : Decidable (EndsFree query) :=
  inferInstanceAs (Decidable (∀ piece ∈ (splitOn '&' query).getLast?, '=' ∉ piece))

/-- What stands behind a part without a value is read on its own. -/
theorem formValues_append {query : List Char} (hfree : EndsFree query) (rest : List Char) :
    formValues (query ++ rest) = formValues query ++ formValues rest := by
  obtain ⟨front, last, first, others, hquery, hrest, hwhole⟩ := splitOn_append '&' query rest
  have hlast : '=' ∉ last := hfree last (by simp [hquery])
  simp only [formValues, hquery, hrest, hwhole, List.filterMap_append, List.filterMap_cons, List.filterMap_nil,
    pieceValue?_append hlast, pieceValue?_of_notMem hlast, List.append_nil]

/-- The values that are read from an encoded query are its texts, one for each pair. -/
theorem formValues_formEncode (values : Entries Json) :
    formValues (formEncode values).toList = (queryPairs values).map (·.2) := by
  rw [formEncode_eq, String.toList_ofList]
  by_cases hpairs : queryPairs values = []
  · rw [hpairs]
    rfl
  · have hpieces : ∀ piece ∈ (queryPairs values).map formPair, '&' ∉ piece :=
      List.forall_mem_map.mpr fun pair _ => notMem_formPair (by simp) pair
    unfold formValues
    rw [splitOn_joinWith (by simpa using hpairs) hpieces, List.filterMap_map]
    exact (List.filterMap_congr fun pair _ => pieceValue?_formPair pair).trans (congrFun List.filterMap_eq_map _)

/-! ## Addresses -/

/-- A query behind this address is read on its own: the address has no fragment, and no value at the end of a
query of its own. -/
structure TakesQuery (url : String) : Prop where
  unmarked : '#' ∉ url.toList
  free : ∀ query ∈ queryPart? url.toList, EndsFree query

/-- The query string of an address without a fragment and of a query behind it. -/
theorem queryPart?_append {url query : List Char} (hurl : '#' ∉ url) (hquery : '#' ∉ query) :
    queryPart? (url ++ '?' :: query) = some (match queryPart? url with
      | none => query
      | some own => own ++ '?' :: query) := by
  have hwhole : ∀ cs : List Char, '#' ∉ cs → cs.takeWhile (· != '#') = cs := by
    intro cs hcs
    exact List.takeWhile_eq_self_iff.mpr fun c hc => by simpa using fun heq : c = '#' => hcs (heq ▸ hc)
  unfold queryPart?
  rw [hwhole url hurl, hwhole _ (by simp [hurl, hquery]), List.dropWhile_append]
  cases List.dropWhile (· != '?') url with
  | nil => rfl
  | cons c own => rfl

theorem queryValues_append {url : String} (hurl : TakesQuery url) {query : List Char} (hquery : '#' ∉ query) :
    queryValues (url ++ "?" ++ String.ofList query) = queryValues url ++ formValues query := by
  have hmark : EndsFree ['?'] := by decide
  have htext : (url ++ "?" ++ String.ofList query).toList = url.toList ++ '?' :: query := by simp
  have hvalues : formValues ('?' :: query) = formValues query := formValues_append hmark query
  unfold queryValues
  rw [htext, queryPart?_append hurl.unmarked hquery]
  cases hown : queryPart? url.toList with
  | none => rfl
  | some own =>
    change formValues (own ++ '?' :: query) = formValues own ++ formValues query
    rw [formValues_append (hurl.free own hown), hvalues]

/-- The values that are read from the address of a sample: those of the address without the query, and the texts
of the query. -/
theorem queryValues_fullUrl {r : SampleRequest} (hurl : TakesQuery r.url) :
    queryValues r.fullUrl = queryValues r.url ++ (queryPairs r.query).map (·.2) := by
  unfold SampleRequest.fullUrl
  split
  · rename_i hempty
    rw [List.isEmpty_iff.mp hempty]
    exact (List.append_nil _).symm
  · have hquery : '#' ∉ (formEncode r.query).toList := by
      rw [formEncode_eq, String.toList_ofList]
      intro hmem
      rcases mem_joinWith hmem with hmem | ⟨piece, hpiece, hmem⟩
      · exact absurd hmem (by decide)
      · obtain ⟨pair, -, rfl⟩ := List.mem_map.mp hpiece
        exact notMem_formPair (by simp) pair hmem
    have hvalues := queryValues_append hurl hquery
    rwa [String.ofList_toList, formValues_formEncode] at hvalues

end ApiManual
