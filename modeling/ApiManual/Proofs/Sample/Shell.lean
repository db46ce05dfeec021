import ApiManual.Proofs.Json.Strict
import ApiManual.Proofs.Sample.Sent

/-!
# Bodies in single quotes

The `curl` command of a sample gives the body as its last argument, in single quotes. A shell takes the text
up to the next single quote, so the argument is the body only if there is no quote in it.

* `Json.texts`: the strings of a value and the names of its fields, at any depth.
* `quote_mem_inline`: a single quote in the text of a value stands in one of these, and nowhere else.
* `singleQuoted?`: how a shell reads behind a single quote.
* `codeSample_quoted_iff`: when it reads the body, and nothing behind it.
-/

namespace ApiManual

/-! ## Quotes in the text of a value -/

namespace Json

mutual

/-- The strings of a value and the names of its fields, at any depth. -/
def texts : Json → List String
  | .str s => [s]
  | .arr items => itemTexts items
  | .obj fields => fieldTexts fields
  | _ => []

def itemTexts : List Json → List String
  | [] => []
  | item :: items => item.texts ++ itemTexts items

def fieldTexts : List (String × Json) → List String
  | [] => []
  | (name, v) :: fields => name :: (v.texts ++ fieldTexts fields)

end

/-- A number is written with digits, a point, an exponent and signs. -/
theorem mem_numeral {n : Numeral} {cs : List Char} {c : Char} (h : n.Spells cs) (hc : c ∈ cs) :
    c.isDigit = true ∨ c ∈ ['.', 'e', 'E', '+', '-'] := by
  obtain ⟨hwhole, hfraction, hexponent⟩ := h
  rcases List.mem_append.mp hc with hc | hc
  · exact .inl (hwhole.digit c hc)
  rcases List.mem_append.mp hc with hc | hc
  · generalize n.fraction = digits at hfraction
    cases hfraction with
    | none => simp at hc
    | point hdigits =>
      rcases List.mem_cons.mp hc with rfl | hc
      · exact .inr (by simp)
      · exact .inl (hdigits.digit c hc)
  · generalize n.exponent = e at hexponent
    cases hexponent with
    | none => simp at hc
    | mark he hsign hdigits =>
      rcases List.mem_cons.mp hc with rfl | hc
      · rcases he with rfl | rfl <;> exact .inr (by simp)
      rcases List.mem_append.mp hc with hc | hc
      · cases hsign <;> simp_all
      · exact .inl (hdigits.digit c hc)

theorem quote_notMem_numeral {n : Numeral} {cs : List Char} (h : n.Spells cs) : '\'' ∉ cs :=
  fun hc => absurd (mem_numeral h hc) (by decide)

theorem quote_notMem_signed {n : Numeral} {cs : List Char} (h : n.Spells cs) (negative : Bool) :
    '\'' ∉ (if negative then ['-'] else []) ++ cs := by
  have hcs := quote_notMem_numeral h
  cases negative <;> simpa using hcs

theorem quote_notMem_intText (i : Int) : '\'' ∉ intText i := by
  have h := quote_notMem_signed (decimalDigits_spells i.natAbs) (decide (i < 0))
  by_cases hi : i < 0 <;> simpa [intText, hi] using h

theorem quote_notMem_floatText (x : Binary64) : '\'' ∉ floatText x := by
  cases x with
  | finite negative significand exponent =>
    obtain ⟨n, hspells, -⟩ := decimalText_spells (Binary64.shortest significand exponent).1
      (Binary64.shortest significand exponent).2
    exact quote_notMem_signed hspells negative
  | infinite negative => cases negative <;> decide
  | nan => decide

theorem quote_mem_escapePlain (c : Char) : '\'' ∈ escapePlain c ↔ '\'' = c := by
  unfold escapePlain
  cases h : shortEscape? c with
  | some text =>
    have hne : '\'' ≠ c := by
      rintro rfl
      simp [shortEscape?] at h
    refine iff_of_false (fun hquote : '\'' ∈ text => ?_) hne
    unfold shortEscape? at h
    split_ifs at h
    all_goals
      obtain rfl := Option.some.inj h
      exact absurd hquote (by decide)
  | none =>
    simp only
    split_ifs with hcontrol
    · refine iff_of_false (fun hquote => ?_) (by rintro rfl; exact absurd hcontrol (by decide))
      have hhex : '\'' ∈ Text.hexDigits 4 c.toNat := by simpa [unicodeEscaped] using hquote
      exact absurd (hexDigits_hex 4 c.toNat _ hhex) (by decide)
    · exact List.mem_singleton

theorem quote_mem_stringText (s : String) : '\'' ∈ stringText escapePlain s ↔ '\'' ∈ s.toList := by
  simp [stringText, quote_mem_escapePlain]

mutual

/-- There is a single quote in the text of a value just if there is one in its strings or names. -/
theorem quote_mem_inline : ∀ v : Json, '\'' ∈ inline escapePlain v ↔ ∃ text ∈ v.texts, '\'' ∈ text.toList
  | .null => by simp [inline, texts]
  | .bool b => by cases b <;> simp [inline, texts]
  | .int i => by simp [inline, texts, quote_notMem_intText]
  | .float x => by simp [inline, texts, quote_notMem_floatText]
  | .str s => by simp [inline, texts, quote_mem_stringText]
  | .arr items => by simp [inline, texts, quote_mem_inlineItems items]
  | .obj fields => by simp [inline, texts, quote_mem_inlineFields fields]

theorem quote_mem_inlineItems : ∀ items : List Json,
    '\'' ∈ inlineItems escapePlain items ↔ ∃ text ∈ itemTexts items, '\'' ∈ text.toList
  | [] => by simp [inlineItems, itemTexts]
  | [item] => by simp [inlineItems, itemTexts, quote_mem_inline item]
  | item :: next :: items => by
    have hrest := quote_mem_inlineItems (next :: items)
    rw [inlineItems, itemTexts]
    simp only [List.mem_append, List.mem_cons, quote_mem_inline item, hrest, or_and_right, exists_or]
    simp

theorem quote_mem_inlineFields : ∀ fields : List (String × Json),
    '\'' ∈ inlineFields escapePlain fields ↔ ∃ text ∈ fieldTexts fields, '\'' ∈ text.toList
  | [] => by simp [inlineFields, fieldTexts]
  | [(name, v)] => by
    simp [inlineFields, fieldTexts, quote_mem_stringText, quote_mem_inline v]
  | (name, v) :: next :: fields => by
    have hrest := quote_mem_inlineFields (next :: fields)
    rw [inlineFields, fieldTexts]
    simp only [List.mem_append, List.mem_cons, quote_mem_stringText, quote_mem_inline v, hrest, or_and_right,
      exists_or, exists_eq_left]
    simp [or_assoc]

end

theorem quote_mem_compact (v : Json) : '\'' ∈ v.compact.toList ↔ ∃ text ∈ v.texts, '\'' ∈ text.toList := by
  rw [compact, String.toList_ofList]
  exact quote_mem_inline v

end Json

/-! ## Reading a quoted argument -/

/-- What a shell reads behind a single quote: the text up to the next one, and the rest of the command. -/
def singleQuoted? (cs : List Char) : Option (List Char × List Char) :=
  match cs.dropWhile (· != '\'') with
  | [] => none
  | _ :: rest => some (cs.takeWhile (· != '\''), rest)

/-- Text in single quotes is read as it is just if there is no single quote in it. -/
theorem singleQuoted?_quoted_iff (text : List Char) :
    singleQuoted? (text ++ ['\'']) = some (text, []) ↔ '\'' ∉ text := by
  unfold singleQuoted?
  constructor
  · intro h hquote
    split at h
    · cases h
    · obtain ⟨htake, -⟩ := Prod.mk.inj (Option.some.inj h)
      rw [← htake] at hquote
      exact absurd (List.mem_takeWhile_imp hquote) (by decide)
  · intro hquote
    have hall : ∀ c ∈ text, (c != '\'') = true := by
      intro c hc
      simpa using fun heq : c = '\'' => hquote (heq ▸ hc)
    rw [List.dropWhile_append_of_pos hall, List.takeWhile_append_of_pos hall]
    simp

/-! ## The last argument of a command -/

/-- The route without parameters of a body. -/
def Route.withoutBody (route : Route) : Route := { route with params := { route.params with body := [] } }

theorem codeSample_bash (base : String) (route : Route) {query body : Entries Json}
    (hquery : expand route.params.query = .ok query) (hbody : expand route.params.body = .ok body) :
    codeSample base "bash" route = .ok (SampleRequest.ofValues base route query body).bash := by
  apply codeSample_of_ofRoute
  unfold SampleRequest.ofRoute
  rw [hquery, hbody]
  rfl

/-- The sample of a route with a body is the one without a body and one more argument in single quotes. A shell
reads the whole body there, and nothing behind it, just if neither the names nor the strings of the body have
a single quote in them. -/
theorem codeSample_quoted_iff (base : String) (route : Route) {query body : Entries Json}
    (hquery : expand route.params.query = .ok query) (hbody : expand route.params.body = .ok body) (hne : body ≠ []) :
    ∃ command argument, codeSample base "bash" route.withoutBody = .ok command ∧
      codeSample base "bash" route = .ok (command ++ " \\\n    -d '" ++ argument) ∧
      (singleQuoted? argument.toList = some ((Json.obj body).compact.toList, []) ↔
        ∀ text ∈ (Json.obj body).texts, '\'' ∉ text.toList) := by
  have hbare : codeSample base "bash" route.withoutBody =
      .ok (SampleRequest.ofValues base route query []).bash := codeSample_bash base route.withoutBody hquery rfl
  have hsample := codeSample_bash base route hquery hbody
  rw [SampleRequest.bash_eq_append _ hne] at hsample
  refine ⟨_, _, hbare, hsample, ?_⟩
  change singleQuoted? ((Json.obj body).compact ++ "'").toList = _ ↔ _
  rw [String.toList_append, show "'".toList = ['\''] from rfl, singleQuoted?_quoted_iff, Json.quote_mem_compact]
  push Not
  rfl

/-! ## A body that is cut short -/

namespace Note

/-- A route that sends a text. -/
def route (text : String) : Route :=
  { id := "x", group := "Notes", title := "Add a note.", methods := ["POST"], uri := "/notes",
    params := { body := [("note.text", { value := .str text })] } }

def body (text : String) : Entries Json := [("note", .obj [("text", .str text)])]

theorem expand_query (text : String) : expand (route text).params.query = .ok [] := rfl

theorem expand_note (text : String) : expand (route text).params.body = .ok (body text) := by
  have hkeys : segments "note.text" = ["note", "text"] := by decide +kernel
  have hplaced : expandOne [] ("note.text", { value := .str text }) = .ok (body text) := by
    unfold expandOne
    rw [hkeys]
    rfl
  change List.foldlM expandOne [] [("note.text", { value := .str text })] = _
  rw [List.foldlM_cons, hplaced]
  rfl

/-- A text with double quotes is pasted as it is. -/
theorem quoted_note : expand (route "say \"hi\"").params.body = .ok (body "say \"hi\"") ∧
    ∃ command argument, codeSample "https://api.test" "bash" (route "say \"hi\"").withoutBody = .ok command ∧
      codeSample "https://api.test" "bash" (route "say \"hi\"") = .ok (command ++ " \\\n    -d '" ++ argument) ∧
      singleQuoted? argument.toList = some ((Json.obj (body "say \"hi\"")).compact.toList, []) := by
  have hbody := expand_note "say \"hi\""
  obtain ⟨command, argument, hcommand, hsample, hiff⟩ := codeSample_quoted_iff "https://api.test"
    (route "say \"hi\"") (expand_query _) hbody (by simp [body])
  exact ⟨hbody, command, argument, hcommand, hsample, hiff.mpr (by decide +kernel)⟩

/-- A text with an apostrophe ends the argument, and the rest of the body follows it. -/
theorem apostrophe_cut :
    codeSample "https://api.test" "bash" (route "it's") =
      .ok ("curl -X POST \"https://api.test/notes\" \\\n    -d '" ++
        ((Json.obj (body "it's")).compact ++ "'")) ∧
    singleQuoted? ((Json.obj (body "it's")).compact ++ "'").toList ≠
      some ((Json.obj (body "it's")).compact.toList, []) := by
  refine ⟨(codeSample_bash _ _ (expand_query "it's") (expand_note "it's")).trans ?_, by decide +kernel⟩
  exact congrArg Except.ok (by decide +kernel)

end Note

end ApiManual
