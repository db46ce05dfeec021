import ApiManual.Proofs.Route.Declared

/-!
# The bodies of declared responses

A response tag is read with the status and the body that it is written with, unless its status is left out and its
body begins with three decimal digits, which are then taken for a status.

* `DeclaredText`: a JSON text behind a status, if there is one, and the response that it says.
* `isNumber_of_beginsWithStatus`: a JSON text that begins like a status is a number, so that no other body is cut.
* `ofContent_content_iff`: when one response is read as it is written.
* `declaredResponses_written`: the same for all responses of a docstring, in their order.
-/

namespace ApiManual

open Text

/-- The text begins with three decimal digits. -/
def BeginsWithStatus (cs : List Char) : Prop := 3 ≤ cs.length ∧ ∀ c ∈ cs.take 3, isDecimal c = true

-- The test runs over the text: there is a slower instance that goes over all characters there are.
instance (cs : List Char) : Decidable (BeginsWithStatus cs) :=
  decidable_of_iff (3 ≤ cs.length ∧ (cs.take 3).all isDecimal = true) (and_congr_right' List.all_eq_true)

/-- A response as its author writes it: a JSON text without blanks around it, perhaps behind a status. -/
structure DeclaredText where
  code : Int := 200
  status : List (List Char) := []
  body : List Char
  value : Json
  written : StatusText code status
  read : Json.readChars body = .ok value
  bare : Bare isBlank body

namespace DeclaredText

/-- The content of the tag. -/
def content (d : DeclaredText) : String := String.ofList (joinWith [' '] (d.status ++ [d.body]))

def response (d : DeclaredText) : ResponseExample := { status := d.code, content := String.ofList d.body }

end DeclaredText

/-! ## Numbers -/

namespace Json

variable {c : Char} {cs : List Char} {v : Json}

/-- A JSON text that begins with a digit is a number. -/
theorem isNumber_of_readChars (h : readChars (c :: cs) = .ok v) (hc : isDecimal c = true) : v.isNumber = true := by
  have hspace : Token.isSpace c = false := by
    by_contra hspace
    simp only [Token.isSpace, Bool.not_eq_false, Bool.or_eq_true, beq_iff_eq] at hspace
    rcases hspace with ((rfl | rfl) | rfl) | rfl <;> exact absurd hc (by decide)
  obtain ⟨first, rest, hlexemes, hbegins⟩ := begins_of_readChars h
  obtain ⟨taken, rfl⟩ : ∃ taken, first = c :: taken := by
    rw [lexemes, lexemesFrom, if_neg (by simp [hspace])] at hlexemes
    exact ⟨_, (List.cons.inj hlexemes).1.symm⟩
  cases hbegins with
  | container hbracket => rcases hbracket with rfl | rfl <;> exact absurd hc (by decide)
  | string => exact absurd hc (by decide)
  | scalar hscalar => exact isNumber_of_scalar? hscalar hc

end Json

theorem isNumber_of_beginsWithStatus {text : List Char} {v : Json} (h : Json.readChars text = .ok v)
    (hbegins : BeginsWithStatus text) : v.isNumber = true := by
  obtain ⟨hlength, hdecimal⟩ := hbegins
  cases text with
  | nil => exact absurd hlength (by simp)
  | cons c cs => exact Json.isNumber_of_readChars h (hdecimal c (by simp))

/-! ## One response -/

theorem takeStatus_begins {cs : List Char} (h : BeginsWithStatus cs) :
    takeStatus cs = (some (cs.take 3), trimLeft (cs.drop 3)) := by
  unfold takeStatus
  exact if_pos ⟨by simpa using h.1, List.all_eq_true.mpr h.2⟩

theorem takeStatus_other {cs : List Char} (h : ¬ BeginsWithStatus cs) : takeStatus cs = (none, trimLeft cs) := by
  unfold takeStatus
  refine if_neg fun ⟨hlength, hall⟩ => h ⟨?_, List.all_eq_true.mp hall⟩
  rw [List.length_take] at hlength
  omega

namespace DeclaredText

variable (d : DeclaredText)

theorem body_ne_nil : d.body ≠ [] := by
  intro hnil
  have hread := d.read
  rw [hnil] at hread
  cases hread

/-- A body that begins like a status loses three characters at least. -/
theorem ofContent_cut (h : BeginsWithStatus d.body) (code : Int) :
    ResponseExample.ofContent (String.ofList d.body) ≠ .ok { status := code, content := String.ofList d.body } := by
  have htrim : trim d.body = d.body := trimBy_eq_self d.bare
  have hshorter : (trimLeft (d.body.drop 3)).length < d.body.length := by
    have hle : (trimLeft (d.body.drop 3)).length ≤ (d.body.drop 3).length := (List.dropWhile_sublist _).length_le
    have hlength := h.1
    rw [List.length_drop] at hle
    omega
  intro heq
  unfold ResponseExample.ofContent at heq
  simp only [String.toList_ofList, htrim, takeStatus_begins h] at heq
  split at heq
  · cases heq
  · have hsame := String.ofList_injective (congrArg ResponseExample.content (Except.ok.inj heq))
    rw [hsame] at hshorter
    exact Nat.lt_irrefl _ hshorter

theorem ofContent_kept (h : ¬ BeginsWithStatus d.body) :
    ResponseExample.ofContent (String.ofList d.body) = .ok { content := String.ofList d.body } := by
  have htrim : trim d.body = d.body := trimBy_eq_self d.bare
  have hleft : trimLeft d.body = d.body := trimLeftBy_eq_self d.bare.head
  unfold ResponseExample.ofContent
  simp only [String.toList_ofList, htrim, takeStatus_other h, hleft, d.read]
  rfl

/-- Behind a status a body stays as it is. -/
theorem ofContent_digits {x y z : Char} {a b c : Nat} (h : Decimals [x, y, z] [a, b, c]) :
    ResponseExample.ofContent (String.ofList ([x, y, z] ++ ([' '] ++ d.body))) =
      .ok { status := 100 * a + 10 * b + c, content := String.ofList d.body } := by
  have hdigits : Bare isBlank [x, y, z] := .of_forall h.solid
  have htrim : trim ([x, y, z] ++ ([' '] ++ d.body)) = [x, y, z] ++ ([' '] ++ d.body) :=
    trimBy_eq_self (hdigits.around d.bare (by simp) d.body_ne_nil [' '])
  have hleft : trimLeft ([' '] ++ d.body) = d.body := (trimLeft_space _).trans (trimLeftBy_eq_self d.bare.head)
  unfold ResponseExample.ofContent
  simp only [String.toList_ofList, htrim, takeStatus_digits h, hleft, d.read, Option.bind_some,
    readInteger?_status h]
  simp

/-- A response is read as it is written just if it has a status in front or does not begin like one. -/
theorem ofContent_content_iff :
    ResponseExample.ofContent d.content = .ok d.response ↔ (d.status = [] → ¬ BeginsWithStatus d.body) := by
  rcases d.written.forms with ⟨hcode, hstatus⟩ | ⟨x, y, z, a, b, c, hdigits, hcode, hstatus⟩
  · have hcontent : d.content = String.ofList d.body := by simp [content, hstatus]
    have hresponse : d.response = { content := String.ofList d.body } := by rw [response, hcode]
    rw [hcontent, hresponse]
    exact ⟨fun heq _ h => d.ofContent_cut h 200 heq, fun h => d.ofContent_kept (h hstatus)⟩
  · have hcontent : d.content = String.ofList ([x, y, z] ++ ([' '] ++ d.body)) := by simp [content, hstatus]
    have hresponse : d.response = { status := 100 * a + 10 * b + c, content := String.ofList d.body } := by
      rw [response, hcode]
    rw [hcontent, hresponse]
    exact ⟨fun _ hnone => by simp [hstatus] at hnone, fun _ => d.ofContent_digits hdigits⟩

end DeclaredText

/-! ## All responses -/

/-- The response tags of a docstring are read as they are written, each as one response in its place, just if no body
without a status begins like one. Only numbers do. -/
theorem declaredResponses_written {tags : List Tag} {texts : List DeclaredText}
    (htags : (tags.filter (·.name == "response")).map (·.content) = texts.map DeclaredText.content) :
    (declaredResponses tags = .ok (texts.map DeclaredText.response) ↔
      ∀ d ∈ texts, d.status = [] → ¬ BeginsWithStatus d.body) ∧
    ∀ d ∈ texts, BeginsWithStatus d.body → d.value.isNumber = true := by
  have hread : declaredResponses tags = texts.mapM fun d => ResponseExample.ofContent d.content := by
    calc declaredResponses tags
      _ = ((tags.filter (·.name == "response")).map (·.content)).mapM ResponseExample.ofContent := by
        rw [List.mapM_map, Function.comp_def, declaredResponses]
      _ = texts.mapM fun d => ResponseExample.ofContent d.content := by
        rw [htags, List.mapM_map, Function.comp_def]
  refine ⟨?_, fun d _ => isNumber_of_beginsWithStatus d.read⟩
  rw [hread, mapM_eq_ok_iff, List.forall₂_map_right_iff, List.forall₂_same]
  exact forall₂_congr fun d _ => d.ofContent_content_iff

/-! ## A number behind a status, and texts without one -/

namespace StockDoc

def counted : DeclaredText where
  code := 201
  status := ["201".toList]
  body := "1234".toList
  value := .int 1234
  written :=
    have hdigits : Decimals "201".toList [2, 0, 1] :=
      .cons (by decide) (.cons (by decide) (.cons (by decide) .nil))
    .digits hdigits
  read := rfl
  bare := by decide +kernel

def missing : DeclaredText where
  body := "\"404\"".toList
  value := .str "404"
  written := .absent
  read := rfl
  bare := by decide +kernel

def dozen : DeclaredText where
  body := "12".toList
  value := .int 12
  written := .absent
  read := rfl
  bare := by decide +kernel

def tags : List Tag := [
  { name := "group", content := "Stock" }, { name := "response", content := "201 1234" },
  { name := "response", content := "\"404\"" }, { name := "response", content := "12" }]

theorem declaredResponses_stock :
    (tags.filter (·.name == "response")).map (·.content) =
        [counted, missing, dozen].map DeclaredText.content ∧
      declaredResponses tags = .ok [{ status := 201, content := "1234" }, { content := "\"404\"" },
        { content := "12" }] := by
  have htags : (tags.filter (·.name == "response")).map (·.content) =
      [counted, missing, dozen].map DeclaredText.content := by decide +kernel
  have hkept : ∀ d ∈ [counted, missing, dozen], d.status = [] → ¬ BeginsWithStatus d.body := by decide +kernel
  exact ⟨htags, (declaredResponses_written htags).1.mpr hkept⟩

end StockDoc

/-! ## A number that begins like a status -/

namespace LongNumber

theorem declaredResponses_cut :
    declaredResponses [{ name := "response", content := "1234" }] = .ok [{ status := 123, content := "4" }] ∧
      ¬ ∀ (text : List Char) (v : Json), Json.readChars text = .ok v → Bare isBlank text →
        declaredResponses [{ name := "response", content := String.ofList text }] =
          .ok [{ content := String.ofList text }] := by
  have hcut : declaredResponses [{ name := "response", content := "1234" }] =
      .ok [{ status := 123, content := "4" }] := rfl
  refine ⟨hcut, fun hkept => ?_⟩
  have hwhole := hkept "1234".toList (.int 1234) rfl (by decide +kernel)
  exact absurd (Except.ok.inj (hcut.symm.trans hwhole)) (by decide +kernel)

end LongNumber

end ApiManual
