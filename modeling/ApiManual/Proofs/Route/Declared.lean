import ApiManual.Proofs.Docstring.Laid
import ApiManual.Proofs.Json.Opening
import ApiManual.Route.Response

/-!
# Declared responses that are laid out over lines

A docstring can declare a response by a JSON text that goes over several lines, with a status code in front of it. The
response is read with this status, and its content is read as the value of the text: `declaredResponses_laidOut`.

* `StatusText`: how the status is written.
* `readInteger?_decimals`: decimal digits of any script are read as a number.
* `ofContent_spaced`: the response of a content that is made of a status and the lexemes of a text.
-/

namespace ApiManual

open Text

/-! ## Decimal digits -/

theorem decimalValue?_lt {c : Char} {d : Nat} (h : decimalValue? c = some d) : d < 10 := by
  unfold decimalValue? at h
  split at h
  · split at h
    · rename_i hrange
      obtain rfl := Option.some.inj h
      simp only [Bool.and_eq_true, decide_eq_true_eq, Char.le_def] at hrange
      have hle : c.toNat ≤ 57 := hrange.2
      omega
    · cases h
  · obtain ⟨range, -, rfl⟩ := Option.map_eq_some_iff.mp h
    exact Nat.mod_lt _ (by decide)

theorem not_isBlank_of_decimalValue? {c : Char} {d : Nat} (h : decimalValue? c = some d) : isBlank c = false := by
  by_contra hblank
  have hnone := of_isBlank (P := fun c => decimalValue? c = none) (by decide +kernel)
    (show isBlank c = true by simpa using hblank)
  rw [h] at hnone
  cases hnone

/-- The characters are decimal digits with these values. -/
def Decimals (cs : List Char) (ds : List Nat) : Prop := List.Forall₂ (fun c d => decimalValue? c = some d) cs ds

namespace Decimals

variable {cs : List Char} {ds : List Nat}

theorem solid (h : Decimals cs ds) : ∀ c ∈ cs, isBlank c = false := by
  induction h with
  | nil => simp
  | cons hc _ ih => exact List.forall_mem_cons.mpr ⟨not_isBlank_of_decimalValue? hc, ih⟩

theorem isDecimal (h : Decimals cs ds) : ∀ c ∈ cs, isDecimal c = true := by
  induction h with
  | nil => simp
  | cons hc _ ih => exact List.forall_mem_cons.mpr ⟨by rw [Text.isDecimal, hc]; rfl, ih⟩

theorem lt (h : Decimals cs ds) : ∀ d ∈ ds, d < 10 := by
  induction h with
  | nil => simp
  | cons hc _ ih => exact List.forall_mem_cons.mpr ⟨decimalValue?_lt hc, ih⟩

theorem plainDigits (h : Decimals cs ds) : Number.plainDigits cs = ds.map Nat.digitChar := by
  induction h with
  | nil => rfl
  | cons hc _ ih =>
    rw [Number.plainDigits, List.map_cons, hc, List.map_cons, ← ih]
    rfl

end Decimals

theorem digitChar_digit : ∀ d < 10, (Nat.digitChar d).isDigit = true ∧ (Nat.digitChar d).toNat - 48 = d := by
  decide

theorem dropUnderscores?_digits {cs : List Char} (h : ∀ c ∈ cs, c.isDigit = true) (afterDigit : Bool) :
    Number.dropUnderscores? afterDigit cs = some cs := by
  induction cs generalizing afterDigit with
  | nil => rfl
  | cons c cs ih =>
    obtain ⟨hc, hcs⟩ := List.forall_mem_cons.mp h
    have hne : c ≠ '_' := by
      rintro rfl
      exact absurd hc (by decide)
    rw [Number.dropUnderscores?, if_neg hne, ih hcs]
    rfl

theorem takeSign_digits {cs : List Char} (h : ∀ c ∈ cs.head?, c.isDigit = true) :
    Number.takeSign cs = (false, cs) := by
  unfold Number.takeSign
  split
  · exact absurd (h '-' rfl) (by decide)
  · exact absurd (h '+' rfl) (by decide)
  · rfl

theorem digitsValue_digitChars {ds : List Nat} (h : ∀ d ∈ ds, d < 10) :
    Number.digitsValue (ds.map Nat.digitChar) = ds.foldl (fun n d => 10 * n + d) 0 := by
  unfold Number.digitsValue
  rw [List.foldl_map]
  refine List.foldl_ext _ _ 0 fun n d hd => ?_
  rw [(digitChar_digit d (h d hd)).2]

/-- Decimal digits of any script are read as a number, if there are not too many. -/
theorem readInteger?_decimals {cs : List Char} {ds : List Nat} (h : Decimals cs ds) (hne : cs ≠ [])
    (hlength : cs.length ≤ Number.maxDigits) :
    Number.readInteger? cs = some (ds.foldl (fun n d => 10 * n + d) 0 : Nat) := by
  have hpadding : ∀ c ∈ cs, Number.isPadding c = false := by
    intro c hc
    simp [Number.isPadding, h.solid c hc]
  have hbare : Bare Number.isPadding cs :=
    .of_forall hpadding
  have hdigits : ∀ c ∈ ds.map Nat.digitChar, c.isDigit = true := by
    intro c hc
    obtain ⟨d, hd, rfl⟩ := List.mem_map.mp hc
    exact (digitChar_digit d (h.lt d hd)).1
  have hds : ds ≠ [] := by
    rintro rfl
    exact hne (List.forall₂_nil_right_iff.mp h)
  have hplain : Number.plain? cs = some (ds.map Nat.digitChar) := by
    rw [Number.plain?, trimBy_eq_self hbare, h.plainDigits, dropUnderscores?_digits hdigits]
  have hsign := takeSign_digits fun c hc => hdigits c (List.mem_of_head? hc)
  have hfits : ds.length ≤ Number.maxDigits := List.Forall₂.length_eq h ▸ hlength
  unfold Number.readInteger?
  simp only [hplain, Option.bind_eq_bind, Option.bind_some, hsign]
  rw [if_pos, digitsValue_digitChars h.lt]
  · rfl
  · simpa [hds, hfits] using hdigits

/-- Three decimal digits are read as hundreds, tens and ones. -/
theorem readInteger?_status {x y z : Char} {a b c : Nat} (h : Decimals [x, y, z] [a, b, c]) :
    Number.readInteger? [x, y, z] = some (100 * (a : Int) + 10 * b + c) := by
  rw [readInteger?_decimals h (by simp) (by simp [Number.maxDigits])]
  simp
  omega

/-! ## The content of a tag -/

/-- A status that may be left out, as it is written: three decimal digits. -/
inductive StatusText : Int → List (List Char) → Prop where
  | absent : StatusText 200 []
  | digits {x y z : Char} {a b c : Nat} (hdigits : Decimals [x, y, z] [a, b, c]) :
      StatusText (100 * a + 10 * b + c) [[x, y, z]]

theorem StatusText.forms {code : Int} {status : List (List Char)} (h : StatusText code status) :
    (code = 200 ∧ status = []) ∨ ∃ (x y z : Char) (a b c : Nat), Decimals [x, y, z] [a, b, c] ∧
      code = 100 * a + 10 * b + c ∧ status = [[x, y, z]] := by
  cases h with
  | absent => exact .inl ⟨rfl, rfl⟩
  | digits hdigits => exact .inr ⟨_, _, _, _, _, _, hdigits, rfl, rfl⟩

theorem StatusText.movable {code : Int} {status : List (List Char)} (h : StatusText code status) :
    ∀ piece ∈ status, Movable piece ∧ piece.head? ≠ some '@' := by
  cases h with
  | absent => simp
  | digits h =>
    refine List.forall_mem_singleton.mpr ⟨movable_of_solid (by simp) h.solid, fun hhead => ?_⟩
    exact absurd (h.isDecimal '@' (List.mem_of_head? hhead)) (by decide)

theorem takeStatus_digits {x y z : Char} {ds : List Nat} (h : Decimals [x, y, z] ds) (rest : List Char) :
    takeStatus ([x, y, z] ++ rest) = (some [x, y, z], trimLeft rest) := by
  unfold takeStatus
  exact if_pos ⟨rfl, List.all_eq_true.mpr h.isDecimal⟩

theorem takeStatus_absent {c : Char} (hc : isDecimal c = false) (rest : List Char) :
    takeStatus (c :: rest) = (none, trimLeft (c :: rest)) := by
  unfold takeStatus
  refine if_neg ?_
  rintro ⟨-, hall⟩
  simp [hc] at hall

section Content

variable {text : List Char} {v : Json} {code : Int} {status : List (List Char)}
  (hread : Json.readChars text = .ok v) (hcontainer : v.isContainer = true)
  (hstrings : ∀ lexeme ∈ Json.lexemes text, lexeme.head? = some '"' → OneLine lexeme)
  (hstatus : StatusText code status)

include hread hcontainer hstrings hstatus

/-- A content that is made of a status and the lexemes of a text declares the status, with the value of the text. -/
theorem ofContent_spaced {content : String} (hcontent : Spaced (status ++ Json.lexemes text) content.toList) :
    ∃ body, ResponseExample.ofContent content = .ok { status := code, content := body } ∧ Json.read body = .ok v := by
  have hpieces : ∀ piece ∈ status ++ Json.lexemes text, Movable piece := fun piece hp =>
    ((List.forall_mem_append.mpr ⟨hstatus.movable, Json.lexemes_movable hread hstrings⟩) piece hp).1
  have hlexemes : ∀ piece ∈ Json.lexemes text, Movable piece :=
    fun piece hp => hpieces piece (List.mem_append_right _ hp)
  cases hstatus with
  | absent =>
    obtain ⟨bracket, lexemes, hfirst, hbracket⟩ := Json.head_lexemes hread hcontainer
    have htrimmed := hcontent.trim hpieces
    rw [List.nil_append, hfirst] at hcontent
    obtain ⟨rest, htrim, -⟩ := hcontent.trim_cons (by rwa [← hfirst])
    have hbody := Json.readChars_spaced hread (htrimmed.trimLeft hpieces)
    have hdecimal : isDecimal bracket = false := by rcases hbracket with rfl | rfl <;> rfl
    have htake : takeStatus (trim content.toList) = (none, trimLeft (trim content.toList)) := by
      rw [htrim]
      exact takeStatus_absent hdecimal rest
    refine ⟨String.ofList (trimLeft (trim content.toList)), ?_, by rw [Json.read, String.toList_ofList, hbody]⟩
    unfold ResponseExample.ofContent
    simp only [htake, hbody]
    rfl
  | @digits x y z a b c hdigits =>
    obtain ⟨rest, htrim, hrest⟩ := hcontent.trim_cons hpieces
    have hbody := Json.readChars_spaced hread (hrest.trimLeft hlexemes)
    refine ⟨String.ofList (trimLeft rest), ?_, by rw [Json.read, String.toList_ofList, hbody]⟩
    unfold ResponseExample.ofContent
    simp only [htrim, takeStatus_digits hdigits, hbody, Option.bind_some, readInteger?_status hdigits]
    rfl

end Content

/-! ## Declared responses -/

/-- A docstring whose only response is a JSON list or object, laid out over lines with a status in front of it,
declares one response with this status, and its content is the same value. -/
theorem declaredResponses_laidOut {text : List Char} {v : Json} {code : Int}
    {status before ls after : List (List Char)} {doc : String} (hread : Json.readChars text = .ok v)
    (hcontainer : v.isContainer = true)
    (hstrings : ∀ lexeme ∈ Json.lexemes text, lexeme.head? = some '"' → OneLine lexeme)
    (hstatus : StatusText code status) (hlayout : TagLayout "response".toList (status ++ Json.lexemes text) ls)
    (hclose : ∀ line ∈ after.head?, Closes line) (hfeed : ∀ line ∈ before ++ after, '\n' ∉ line)
    (hdoc : doc = String.ofList (joinWith ['\n'] (before ++ (ls ++ after))))
    (honly : ((Docstring.read doc).tagsNamed "response").length = 1) :
    ∃ content, declaredResponses (Docstring.read doc).tags = .ok [{ status := code, content }] ∧
      Json.read content = .ok v := by
  have hword : ∀ c ∈ "response".toList, isWordChar c = true := List.all_eq_true.mp (by decide +kernel)
  obtain ⟨tag, htag, hname, hcontent⟩ := read_laidOut (by decide) hword
    (List.forall_mem_append.mpr ⟨hstatus.movable, Json.lexemes_movable hread hstrings⟩) hlayout hclose hfeed
  rw [← hdoc] at htag
  obtain ⟨only, honlyTag⟩ := List.length_eq_one_iff.mp honly
  have hmem : tag ∈ (Docstring.read doc).tagsNamed "response" :=
    List.mem_filter.mpr ⟨htag, by rw [hname]; rfl⟩
  rw [honlyTag, List.mem_singleton] at hmem
  obtain ⟨body, hbody, hvalue⟩ := ofContent_spaced hread hcontainer hstrings hstatus hcontent
  refine ⟨body, ?_, hvalue⟩
  have hfilter : (Docstring.read doc).tags.filter (·.name == "response") = [tag] := by
    rw [hmem]
    exact honlyTag
  unfold declaredResponses
  rw [hfilter, mapM_cons_eq, hbody]
  rfl

/-! ## A response over four lines -/

namespace OrderDoc

def text : List Char := "\x7b\"id\": 7, \"tags\": [\"a  b\", null]\x7d".toList

def value : Json := .obj [("id", .int 7), ("tags", .arr [.str "a  b", .null])]

def before : List (List Char) := ["Create an order.".toList, [], "    @group Orders".toList]

def ls : List (List Char) :=
  ["    @response 201 \x7b".toList, "\t\"id\" :\t7 ,".toList, "  \"tags\":[ \"a  b\",".toList,
    "\t\tnull]\x7d  ".toList]

def after : List (List Char) := ["    ".toList, "    Prose.".toList]

def doc : String := String.ofList (joinWith ['\n'] (before ++ (ls ++ after)))

theorem text_lexemes : Json.lexemes text = ["\x7b".toList, "\"id\"".toList, ":".toList, "7".toList, ",".toList,
    "\"tags\"".toList, ":".toList, "[".toList, "\"a  b\"".toList, ",".toList, "null".toList, "]".toList,
    "\x7d".toList] := by
  decide +kernel

theorem layout_ls : TagLayout "response".toList (["201".toList] ++ Json.lexemes text) ls := by
  have hfirst : Spaced ["201".toList, "\x7b".toList] " 201 \x7b".toList :=
    spaced_of_holdsPieces (by decide +kernel)
  have hbelow : List.Forall₂ (fun group line => group ≠ [] ∧ Spaced group line)
      [["\"id\"".toList, ":".toList, "7".toList, ",".toList],
        ["\"tags\"".toList, ":".toList, "[".toList, "\"a  b\"".toList, ",".toList],
        ["null".toList, "]".toList, "\x7d".toList]]
      ["\t\"id\" :\t7 ,".toList, "  \"tags\":[ \"a  b\",".toList, "\t\tnull]\x7d  ".toList] := by
    refine .cons ⟨by simp, ?_⟩ (.cons ⟨by simp, ?_⟩ (.cons ⟨by simp, ?_⟩ .nil)) <;>
      exact spaced_of_holdsPieces (by decide +kernel)
  have hindent : Gap "    ".toList := by decide
  have hblank : ∀ c ∈ " 201 \x7b".toList.head?, isBlank c = true := by
    intro c hc
    obtain rfl := Option.some.inj hc
    decide
  rw [text_lexemes]
  exact .mk hindent hfirst hblank hbelow

theorem declaredResponses_doc :
    doc = "Create an order.\n\n    @group Orders\n    @response 201 \x7b\n\t\"id\" :\t7 ,\n" ++
      "  \"tags\":[ \"a  b\",\n\t\tnull]\x7d  \n    \n    Prose." ∧
    ∃ content, declaredResponses (Docstring.read doc).tags = .ok [{ status := 201, content }] ∧
      Json.read content = .ok value := by
  have hread : Json.readChars text = .ok value := rfl
  have hstrings : ∀ lexeme ∈ Json.lexemes text, lexeme.head? = some '"' → OneLine lexeme := by
    rw [text_lexemes]
    decide +kernel
  have hdigits : Decimals "201".toList [2, 0, 1] :=
    .cons (by decide) (.cons (by decide) (.cons (by decide) .nil))
  have hstatus : StatusText 201 ["201".toList] := .digits hdigits
  have hclose : ∀ line ∈ after.head?, Closes line := by
    intro line hline
    obtain rfl := Option.some.inj hline
    exact .inl (by decide)
  refine ⟨by decide +kernel, ?_⟩
  exact declaredResponses_laidOut hread rfl hstrings hstatus layout_ls hclose (by decide +kernel) rfl
    (by decide +kernel)

end OrderDoc

end ApiManual
