import ApiManual.Json.Reader
import ApiManual.Proofs.Json.Numbers
import ApiManual.Proofs.Json.Strings

/-!
# What is written can be read

The text of a value on one line is JSON if its integers are short (`isJson_compact`), also the text in ASCII
(`isJson_compactAscii`), and finite floats are read back as finite ones (`read_compactAscii`). `feed` runs
the machine of the reader over a text; the lemmas say where it gets to behind each thing that is written.
-/

namespace ApiManual.Json

open Token

/-- Where the machine gets to from a stage by the tokens of a text that begins at `position`. -/
def feed (stage : Stage) (position : Nat) (cs : List Char) : Except (Flaw × Nat) Stage :=
  (scanFrom 0 position cs).foldlM Stage.step stage

/-! ## Single tokens -/

section Tokens

variable {stage : Stage} {stack : List Frame} {position : Nat} {c : Char} {cs xs rest : List Char}

theorem scanFrom_skip (position : Nat) (xs cs : List Char) :
    scanFrom xs.length position (xs ++ cs) = scanFrom 0 (position + xs.length) cs := by
  induction xs generalizing position with
  | nil => rfl
  | cons x xs ih =>
    rw [List.length_cons, List.cons_append, scanFrom, ih,
      show position + 1 + xs.length = position + (xs.length + 1) by omega]

/-- A token that takes a number of characters behind its first moves the machine by one step. -/
theorem feed_token {token : Token} (hspace : isSpace c = false)
    (hread : Token.read position c (xs ++ rest) = (token, xs.length)) (hlast : token.isLast = false) :
    feed stage position (c :: (xs ++ rest)) =
      stage.step ⟨position, token⟩ >>= fun stage => feed stage (position + 1 + xs.length) rest := by
  unfold feed
  rw [scanFrom, if_neg (by simp [hspace]), hread]
  simp only [hlast, Bool.false_eq_true, if_false]
  rw [List.foldlM_cons, scanFrom_skip]

/-- A text that ends in a quote is read as a string. -/
theorem feed_string {escaped : Char → List Char} (hescaped : Escapes escaped) (s : String) :
    feed stage position (stringText escaped s ++ rest) = stage.step ⟨position, .string s⟩ >>= fun stage =>
      feed stage (position + 1 + (s.toList.flatMap escaped ++ ['"']).length) rest := by
  have hread : Token.read position '"' (s.toList.flatMap escaped ++ ['"'] ++ rest) =
      (.string s, (s.toList.flatMap escaped ++ ['"']).length) := by
    simp only [Token.read, List.append_assoc, List.singleton_append, stringBody_escaped hescaped,
      String.ofList_toList]
    simp
  have htext : stringText escaped s ++ rest =
      '"' :: (s.toList.flatMap escaped ++ ['"'] ++ rest) := by simp [stringText]
  rw [htext, feed_token (by decide) hread rfl]

/-- Characters that begin no scalar. -/
def nonscalars : List Char :=
  [' ', '\t', '\n', '\r', '[', ']', '\x7b', '\x7d', ',', ':', '"', '\ufeff']

theorem scalar?_nonscalar (h : c ∈ nonscalars) (cs : List Char) : scalar? (c :: cs) = none := by
  simp only [nonscalars, List.mem_cons, List.not_mem_nil, or_false] at h
  rcases h with rfl | rfl | rfl | rfl | rfl | rfl | rfl | rfl | rfl | rfl | rfl | rfl <;> rfl

theorem read_scalar {v : Json} {n : Nat} (h : scalar? (c :: cs) = some (v, n)) :
    Token.read position c cs = (.value v, n - 1) := by
  have hc : c ∉ nonscalars := fun hmem => by simp [scalar?_nonscalar hmem] at h
  simp only [nonscalars, List.mem_cons, List.not_mem_nil, or_false, not_or] at hc
  unfold Token.read
  split <;> simp_all

theorem isSpace_of_scalar {v : Json} {n : Nat} (h : scalar? (c :: cs) = some (v, n)) : isSpace c = false := by
  have hc : c ∉ nonscalars := fun hmem => by simp [scalar?_nonscalar hmem] at h
  simp only [nonscalars, List.mem_cons, List.not_mem_nil, or_false, not_or] at hc
  simp [isSpace, hc]

theorem feed_scalar {v : Json} (h : scalar? (c :: cs ++ rest) = some (v, (c :: cs).length))
    (hshort : v.isLong = false) :
    feed (.value stack) position (c :: cs ++ rest) =
      feed (.after v stack) (position + 1 + cs.length) rest := by
  have hstep : Stage.step (.value stack) ⟨position, .value v⟩ = .ok (.after v stack) :=
    begin_value_iff.mpr ⟨hshort, rfl⟩
  rw [List.cons_append] at h ⊢
  rw [feed_token (isSpace_of_scalar h) (read_scalar h) rfl, hstep]
  rfl

/-! ## Text that opens a value -/

/-- A text whose first character is neither blank nor a closing bracket nor a byte order mark. -/
inductive Opens : List Char → Prop where
  | mk {c : Char} {cs : List Char} (hspace : isSpace c = false) (hclose : c ≠ ']') (hmark : c ≠ '\ufeff') :
      Opens (c :: cs)

theorem Opens.unmarked {text : List Char} (h : Opens text) : text.head? ≠ some '\ufeff' := by
  obtain ⟨-, -, hmark⟩ := h
  simpa using hmark

theorem opens_of_scalar {v : Json} {n : Nat} (h : scalar? (c :: cs) = some (v, n)) : Opens (c :: cs) := by
  have hc : c ∉ nonscalars := fun hmem => by simp [scalar?_nonscalar hmem] at h
  refine .mk (isSpace_of_scalar h) ?_ ?_ <;> rintro rfl <;> exact hc (by decide)

theorem read_ne_endArray (position : Nat) (hclose : c ≠ ']') (cs : List Char) :
    (Token.read position c cs).1 ≠ .endArray := by
  unfold Token.read
  split <;> simp_all <;> split <;> simp

theorem step_firstItem {token : Token} (htoken : token ≠ .endArray) :
    Stage.step (.firstItem stack) ⟨position, token⟩ = Stage.begin (.list [] :: stack) ⟨position, token⟩ := by
  cases token <;> first | rfl | exact absurd rfl htoken

/-- The first item of a list is read as any other. -/
theorem feed_firstItem {text : List Char} (h : Opens text) :
    feed (.firstItem stack) position text = feed (.value (.list [] :: stack)) position text := by
  obtain @⟨c, cs, hspace, hclose, -⟩ := h
  have hfirst : ∃ token tail, scanFrom 0 position (c :: cs) = ⟨position, token⟩ :: tail ∧ token ≠ .endArray := by
    rw [scanFrom, if_neg (by simp [hspace])]
    have hread := read_ne_endArray position hclose cs
    generalize Token.read position c cs = taken at hread ⊢
    obtain ⟨token, n⟩ := taken
    simp only
    split <;> exact ⟨token, _, rfl, hread⟩
  obtain ⟨token, tail, htokens, htoken⟩ := hfirst
  unfold feed
  rw [htokens, List.foldlM_cons, List.foldlM_cons, step_firstItem htoken]
  rfl

end Tokens

/-! ## Values -/

variable {escaped : Char → List Char}

theorem opens_scalar {text : List Char} {v : Json} (h : scalar? (text ++ []) = some (v, text.length)) :
    Opens text := by
  rw [List.append_nil] at h
  cases text with
  | nil => simp [scalar?, words, takeNumber?] at h
  | cons c cs => exact opens_of_scalar h

theorem opens_inline (v : Json) : Opens (inline escaped v) := by
  have hend : AtEnd [] := by simp [AtEnd]
  cases v with
  | null => exact .mk rfl (by decide) (by decide)
  | bool b => cases b <;> exact .mk rfl (by decide) (by decide)
  | int i =>
    rw [inline]
    exact opens_scalar (scalar?_intText i hend)
  | float x =>
    obtain ⟨y, hy, -⟩ := scalar?_floatText x hend
    rw [inline]
    exact opens_scalar hy
  | str s => exact .mk rfl (by decide) (by decide)
  | arr items => exact .mk rfl (by decide) (by decide)
  | obj fields => exact .mk rfl (by decide) (by decide)

theorem Opens.append {text rest : List Char} (h : Opens text) : Opens (text ++ rest) := by
  obtain ⟨hspace, hclose, hmark⟩ := h
  exact .mk hspace hclose hmark

theorem feed_scalars {text rest : List Char} {v : Json} (h : scalar? (text ++ rest) = some (v, text.length))
    (hshort : v.isLong = false) (hopens : Opens text) (stack : List Frame) (position : Nat) :
    ∃ position', feed (.value stack) position (text ++ rest) = feed (.after v stack) position' rest := by
  obtain ⟨-, -, -⟩ := hopens
  exact ⟨_, feed_scalar h hshort⟩

theorem opens_inlineItems {items : List Json} (h : items ≠ []) : Opens (inlineItems escaped items) := by
  match items, h with
  | [item], _ => exact opens_inline item
  | item :: _ :: _, _ => exact (opens_inline item).append

theorem atEnd_cons {c : Char} (h : c = ',' ∨ c = ']' ∨ c = '\x7d') (cs : List Char) : AtEnd (c :: cs) := by
  simpa [AtEnd] using h

theorem feed_list {stack : List Frame} {position : Nat} {cs : List Char} (h : Opens cs) :
    feed (.value stack) position ('[' :: cs) = feed (.value (.list [] :: stack)) (position + 1) cs :=
  feed_firstItem h

/-- The name of a member, and the colon behind it. -/
theorem feed_name (hescaped : Escapes escaped) (fields : Entries Json) (closable : Bool) (name : String)
    (stack : List Frame) (position : Nat) (rest : List Char) :
    ∃ position', feed (.name fields closable stack) position
      (stringText escaped name ++ ':' :: ' ' :: rest) =
        feed (.value (.members fields name :: stack)) position' rest := by
  rw [feed_string hescaped]
  exact ⟨_, rfl⟩

/-- The value that is read has no infinite floats if the value that was written has none. -/
def Keeps (v v' : Json) : Prop := v.Proper → v'.Finite

mutual

/-- The machine reads the text of a value in front of the end of an item. -/
theorem feed_inline (hescaped : Escapes escaped) :
    ∀ (v : Json) (stack : List Frame) (position : Nat) (rest : List Char), v.Short → AtEnd rest →
    ∃ v' position', feed (.value stack) position (inline escaped v ++ rest) =
      feed (.after v' stack) position' rest ∧ Keeps v v'
  | .null, stack, position, rest, _, _ => by
    obtain ⟨position', h⟩ := feed_scalars rfl rfl (opens_inline .null) stack position
    exact ⟨.null, position', h, fun _ => each_null⟩
  | .bool true, stack, position, rest, _, _ => by
    obtain ⟨position', h⟩ := feed_scalars rfl rfl (opens_inline (.bool true)) stack position
    exact ⟨.bool true, position', h, fun _ => each_bool true⟩
  | .bool false, stack, position, rest, _, _ => by
    obtain ⟨position', h⟩ := feed_scalars rfl rfl (opens_inline (.bool false)) stack position
    exact ⟨.bool false, position', h, fun _ => each_bool false⟩
  | .int i, stack, position, rest, hshort, hrest => by
    obtain ⟨position', h⟩ := feed_scalars (scalar?_intText i hrest) (each_int.mp hshort) (@opens_inline escaped (.int i))
      stack position
    exact ⟨.int i, position', h, fun _ => each_int.mpr rfl⟩
  | .float x, stack, position, rest, _, hrest => by
    obtain ⟨y, hy, hfinite⟩ := scalar?_floatText x hrest
    obtain ⟨position', h⟩ := feed_scalars hy rfl (@opens_inline escaped (.float x)) stack position
    refine ⟨.float y, position', h, fun hproper => each_float.mpr ?_⟩
    obtain ⟨hrange, hx⟩ := each_float.mp hproper
    exact hfinite hrange hx
  | .str s, stack, position, rest, _, _ => by
    rw [inline, feed_string hescaped]
    exact ⟨.str s, _, rfl, fun _ => each_str s⟩
  | .arr [], stack, position, rest, _, _ => ⟨.arr [], position + 2, rfl, fun _ => by simp⟩
  | .arr (item :: items), stack, position, rest, hshort, _ => by
    obtain ⟨v', position', h, hkeeps⟩ :=
      feed_items hescaped (item :: items) (by simp) (each_arr.mp hshort) [] stack (position + 1) rest
    refine ⟨v', position', ?_, fun hproper => hkeeps (by simp) (each_arr.mp hproper)⟩
    rw [inline, List.append_assoc, List.singleton_append, List.cons_append,
      feed_list (opens_inlineItems (by simp)).append, h]
  | .obj [], stack, position, rest, _, _ => ⟨.obj [], position + 2, rfl, fun _ => by simp⟩
  | .obj (field :: fields), stack, position, rest, hshort, _ => by
    obtain ⟨v', position', h, hkeeps⟩ :=
      feed_fields hescaped (field :: fields) (by simp) (each_obj.mp hshort) [] true stack (position + 1) rest
    refine ⟨v', position', ?_, fun hproper => hkeeps (by simp) (each_obj.mp hproper)⟩
    rw [inline, List.append_assoc, List.singleton_append, List.cons_append]
    exact h

/-- The items of a list that is open, up to its end. -/
theorem feed_items (hescaped : Escapes escaped) : ∀ (items : List Json), items ≠ [] →
    (∀ item ∈ items, item.Short) → ∀ (done : List Json) (stack : List Frame) (position : Nat) (rest : List Char), ∃ v' position',
      feed (.value (.list done :: stack)) position (inlineItems escaped items ++ ']' :: rest) =
        feed (.after v' stack) position' rest ∧
      ((∀ item ∈ done, item.Finite) → (∀ item ∈ items, item.Proper) → v'.Finite)
  | [], h, _, _, _, _, _ => absurd rfl h
  | [item], _, hshort, done, stack, position, rest => by
    obtain ⟨v, position', h, hkeeps⟩ := feed_inline hescaped item (.list done :: stack) position (']' :: rest)
      (hshort item (by simp)) (atEnd_cons (by simp) rest)
    refine ⟨.arr (done ++ [v]), position' + 1, h, fun hdone hproper => each_arr.mpr ?_⟩
    exact List.forall_mem_append.mpr ⟨hdone, List.forall_mem_singleton.mpr (hkeeps (hproper item (by simp)))⟩
  | item :: next :: items, _, hshort, done, stack, position, rest => by
    obtain ⟨hshortFirst, hshortRest⟩ := List.forall_mem_cons.mp hshort
    obtain ⟨v, p₁, h₁, hkeeps₁⟩ := feed_inline hescaped item (.list done :: stack) position
      (',' :: ' ' :: (inlineItems escaped (next :: items) ++ ']' :: rest)) hshortFirst (atEnd_cons (by simp) _)
    obtain ⟨v', p₂, h₂, hkeeps₂⟩ :=
      feed_items hescaped (next :: items) (by simp) hshortRest (done ++ [v]) stack (p₁ + 2) rest
    refine ⟨v', p₂, ?_, fun hdone hproper => ?_⟩
    · rw [inlineItems, List.append_assoc, List.cons_append, List.cons_append, h₁]
      exact h₂
    · obtain ⟨hitem, hrest⟩ := List.forall_mem_cons.mp hproper
      exact hkeeps₂ (List.forall_mem_append.mpr ⟨hdone, List.forall_mem_singleton.mpr (hkeeps₁ hitem)⟩) hrest

/-- The members of an object that is open, up to its end. -/
theorem feed_fields (hescaped : Escapes escaped) : ∀ (fields : List (String × Json)), fields ≠ [] →
    (∀ field ∈ fields, field.2.Short) → ∀ (done : Entries Json) (closable : Bool) (stack : List Frame) (position : Nat) (rest : List Char),
      ∃ v' position',
      feed (.name done closable stack) position (inlineFields escaped fields ++ '\x7d' :: rest) =
        feed (.after v' stack) position' rest ∧
      ((∀ field ∈ done, field.2.Finite) → (∀ field ∈ fields, field.2.Proper) → v'.Finite)
  | [], h, _, _, _, _, _, _ => absurd rfl h
  | [(name, v)], _, hshort, done, closable, stack, position, rest => by
    obtain ⟨p₁, h₁⟩ := feed_name hescaped done closable name stack position (inline escaped v ++ '\x7d' :: rest)
    obtain ⟨v', p₂, h₂, hkeeps⟩ := feed_inline hescaped v (.members done name :: stack) p₁ ('\x7d' :: rest)
      (hshort (name, v) (by simp)) (atEnd_cons (by simp) rest)
    refine ⟨.obj (done.set name v'), p₂ + 1, ?_, fun hdone hproper => each_obj.mpr ?_⟩
    · rw [inlineFields, List.append_assoc, List.cons_append, List.cons_append, h₁, h₂]
      rfl
    · exact Entries.forall_set name hdone (hkeeps (hproper (name, v) (by simp)))
  | (name, v) :: next :: fields, _, hshort, done, closable, stack, position, rest => by
    obtain ⟨hshortFirst, hshortRest⟩ := List.forall_mem_cons.mp hshort
    obtain ⟨p₁, h₁⟩ := feed_name hescaped done closable name stack position (inline escaped v ++
      ',' :: ' ' :: (inlineFields escaped (next :: fields) ++ '\x7d' :: rest))
    obtain ⟨v', p₂, h₂, hkeeps₂⟩ := feed_inline hescaped v (.members done name :: stack) p₁
      (',' :: ' ' :: (inlineFields escaped (next :: fields) ++ '\x7d' :: rest)) hshortFirst (atEnd_cons (by simp) _)
    obtain ⟨v'', p₃, h₃, hkeeps₃⟩ := feed_fields hescaped (next :: fields) (by simp) hshortRest (done.set name v') false
      stack (p₂ + 2) rest
    refine ⟨v'', p₃, ?_, fun hdone hproper => ?_⟩
    · simp only [inlineFields, List.append_assoc, List.cons_append] at h₁ h₂ h₃ ⊢
      rw [h₁, h₂]
      exact h₃
    · obtain ⟨hfield, hrest⟩ := List.forall_mem_cons.mp hproper
      exact hkeeps₃ (Entries.forall_set name hdone (hkeeps₂ hfield)) hrest

end

theorem readChars_inline (hescaped : Escapes escaped) {v : Json} (hshort : v.Short) :
    ∃ v', readChars (inline escaped v) = .ok v' ∧ Keeps v v' := by
  obtain ⟨v', position, h, hkeeps⟩ := feed_inline hescaped v [] 0 [] hshort (by simp [AtEnd])
  have htokens : ofTokens (scan (inline escaped v)) = .ok v' := by
    rw [List.append_nil] at h
    unfold ofTokens
    rw [show List.foldlM Stage.step (.value []) (scan (inline escaped v)) = _ from h]
    rfl
  refine ⟨v', ?_, hkeeps⟩
  unfold readChars
  rw [if_neg (opens_inline v).unmarked, htokens]

/-- The text of a value in ASCII is read, as a value without infinite floats if there are none in it. -/
theorem read_compactAscii {v : Json} (hshort : v.Short) : ∃ v', read v.compactAscii = .ok v' ∧ Keeps v v' := by
  unfold read compactAscii
  rw [String.toList_ofList]
  exact readChars_inline escapes_escapeAscii hshort

/-- The text of a value in ASCII is JSON. -/
theorem isJson_compactAscii {v : Json} (hshort : v.Short) : isJson v.compactAscii = true := by
  obtain ⟨v', h, -⟩ := read_compactAscii hshort
  unfold isJson
  rw [h]
  rfl

end ApiManual.Json
