import ApiManual.Json.Writer
import ApiManual.Proofs.Json.Numbers
import ApiManual.Proofs.Json.Strings

/-!
# Strict JSON

`Strict` is the grammar of RFC 8259, in which `NaN`, `Infinity` and `-Infinity` are no values. The text of
a value on one line is in it iff the value has no float that is infinite or no number
(`strict_compact_iff`).

* `derives_inline`: the text of a finite value can be derived.
* `unquoted` is the part of a text outside its strings. Derived texts have neither `N` nor `I` in it
  (`Derives.unmarked`), and the words for other floats have (`markedUnless_inline`).
-/

namespace ApiManual.Json

open Text Token

/-! ## The grammar -/

/-- White space around a value. -/
def Blanks (cs : List Char) : Prop := ∀ c ∈ cs, isSpace c = true

/-- One character of a string, as it is or as an escape. -/
inductive Piece : List Char → Prop where
  | plain {c : Char} (hcontrol : 0x20 ≤ c.toNat) (hquote : c ≠ '"') (hslash : c ≠ '\\') : Piece [c]
  | short {c : Char} (h : c ∈ ['"', '\\', '/', 'b', 'f', 'n', 'r', 't']) : Piece ['\\', c]
  | unicode {digits : List Char} (hlength : digits.length = 4) (h : ∀ d ∈ digits, (hexValue? d).isSome) :
      Piece ('\\' :: 'u' :: digits)

/-- The characters of a string between its quotes. -/
inductive Body : List Char → Prop where
  | nil : Body []
  | cons {piece body : List Char} (hpiece : Piece piece) (hbody : Body body) : Body (piece ++ body)

/-- What a text is a derivation of: a value, a value with blanks around it, or what stands between the
brackets of a list or an object that is not empty. -/
inductive Part where
  | value
  | element
  | items
  | members

/-- The texts of RFC 8259. -/
inductive Derives : Part → List Char → Prop where
  | null : Derives .value "null".toList
  | true : Derives .value "true".toList
  | false : Derives .value "false".toList
  | number (negative : Bool) {n : Numeral} {cs : List Char} (h : n.Spells cs) :
      Derives .value ((if negative then ['-'] else []) ++ cs)
  | string {body : List Char} (h : Body body) : Derives .value ('"' :: body ++ ['"'])
  | emptyArray {blanks : List Char} (h : Blanks blanks) : Derives .value ('[' :: blanks ++ [']'])
  | array {items : List Char} (h : Derives .items items) : Derives .value ('[' :: items ++ [']'])
  | emptyObject {blanks : List Char} (h : Blanks blanks) : Derives .value ('\x7b' :: blanks ++ ['\x7d'])
  | object {members : List Char} (h : Derives .members members) : Derives .value ('\x7b' :: members ++ ['\x7d'])
  | element {before cs behind : List Char} (hbefore : Blanks before) (h : Derives .value cs)
      (hbehind : Blanks behind) : Derives .element (before ++ cs ++ behind)
  | item {cs : List Char} (h : Derives .element cs) : Derives .items cs
  | items {cs items : List Char} (h : Derives .element cs) (hitems : Derives .items items) :
      Derives .items (cs ++ ',' :: items)
  | member {before name behind cs : List Char} (hbefore : Blanks before) (hname : Body name)
      (hbehind : Blanks behind) (h : Derives .element cs) :
      Derives .members (before ++ ('"' :: name ++ ['"']) ++ behind ++ ':' :: cs)
  | members {member members : List Char} (h : Derives .members member) (hmembers : Derives .members members) :
      Derives .members (member ++ ',' :: members)

/-- The text is JSON in the strict sense. -/
def Strict (text : List Char) : Prop := Derives .element text

/-! ## Finite values -/

theorem blanks_nil : Blanks [] := by simp [Blanks]

theorem blanks_space : Blanks [' '] := by simp [Blanks, isSpace]

theorem Derives.toElement {cs : List Char} (h : Derives .value cs) : Derives .element cs := by
  simpa using Derives.element blanks_nil h blanks_nil

theorem Derives.spaced {cs : List Char} (h : Derives .value cs) : Derives .element (' ' :: cs) := by
  simpa using Derives.element blanks_space h blanks_nil

theorem hexDigits_hex (width n : Nat) : ∀ d ∈ hexDigits width n, (hexValue? d).isSome := by
  induction width generalizing n with
  | zero => simp [hexDigits]
  | succ width ih =>
    have hlast : (hexValue? (Nat.digitChar (n % 16))).isSome := by
      rw [hexValue?_digitChar _ (Nat.mod_lt _ (by decide))]
      rfl
    intro d hd
    rcases List.mem_append.mp hd with hd | hd
    · exact ih (n / 16) d hd
    · rw [List.mem_singleton.mp hd]
      exact hlast

theorem piece_shortEscape {c : Char} {text : List Char} (h : shortEscape? c = some text) : Piece text := by
  unfold shortEscape? at h
  split_ifs at h
  all_goals
    obtain rfl := Option.some.inj h
    exact .short (by decide)

theorem piece_escapePlain (c : Char) : Piece (escapePlain c) := by
  unfold escapePlain
  cases h : shortEscape? c with
  | some text => exact piece_shortEscape h
  | none =>
    obtain ⟨hquote, hslash⟩ := ne_of_shortEscape h
    simp only
    split_ifs with hcontrol
    · exact .unicode (hexDigits_length 4 _) (hexDigits_hex 4 _)
    · exact .plain (by omega) hquote hslash

theorem body_escapePlain (cs : List Char) : Body (cs.flatMap escapePlain) := by
  induction cs with
  | nil => exact .nil
  | cons c cs ih => exact .cons (piece_escapePlain c) ih

theorem derives_stringText (s : String) : Derives .value (stringText escapePlain s) :=
  .string (body_escapePlain s.toList)

theorem derives_intText (i : Int) : Derives .value (intText i) := by
  have hnumber := Derives.number (decide (i < 0)) (decimalDigits_spells i.natAbs)
  by_cases h : i < 0 <;> simpa [intText, h] using hnumber

theorem derives_floatText {x : Binary64} (h : x.isFinite = true) : Derives .value (floatText x) := by
  cases x with
  | finite negative significand exponent =>
    obtain ⟨n, hspells, -⟩ := decimalText_spells (Binary64.shortest significand exponent).1
      (Binary64.shortest significand exponent).2
    exact .number negative hspells
  | infinite negative => exact absurd h Bool.false_ne_true
  | nan => exact absurd h Bool.false_ne_true

/-- A member as it is written, with blanks before its name. -/
theorem derives_member (name : String) {blanks cs : List Char} (hblanks : Blanks blanks) (h : Derives .value cs) :
    Derives .members (blanks ++ (stringText escapePlain name ++ ':' :: ' ' :: cs)) := by
  have hmember := Derives.member hblanks (body_escapePlain name.toList) blanks_nil h.spaced
  simpa [stringText] using hmember

mutual

/-- The text of a finite value is strict. -/
theorem derives_inline : ∀ v : Json, v.Finite → Derives .value (inline escapePlain v)
  | .null, _ => .null
  | .bool true, _ => .true
  | .bool false, _ => .false
  | .int i, _ => derives_intText i
  | .float _, h => derives_floatText (each_float.mp h)
  | .str s, _ => derives_stringText s
  | .arr [], _ => .emptyArray blanks_nil
  | .arr (item :: items), h => .array (derives_items (item :: items) (by simp) blanks_nil (each_arr.mp h))
  | .obj [], _ => .emptyObject blanks_nil
  | .obj (field :: fields), h => .object (derives_fields (field :: fields) (by simp) blanks_nil (each_obj.mp h))

theorem derives_items : ∀ items : List Json, items ≠ [] → ∀ {blanks : List Char}, Blanks blanks →
    (∀ item ∈ items, item.Finite) → Derives .items (blanks ++ inlineItems escapePlain items)
  | [], h, _, _, _ => absurd rfl h
  | [item], _, blanks, hblanks, hfinite => by
    have hitem := Derives.element hblanks (derives_inline item (hfinite item (by simp))) blanks_nil
    rw [List.append_nil] at hitem
    exact .item hitem
  | item :: next :: items, _, blanks, hblanks, hfinite => by
    obtain ⟨hfirst, hrest⟩ := List.forall_mem_cons.mp hfinite
    have hitem := Derives.element hblanks (derives_inline item hfirst) blanks_nil
    have hitems := derives_items (next :: items) (by simp) blanks_space hrest
    simpa [inlineItems] using Derives.items hitem hitems

theorem derives_fields : ∀ fields : List (String × Json), fields ≠ [] → ∀ {blanks : List Char}, Blanks blanks →
    (∀ field ∈ fields, field.2.Finite) → Derives .members (blanks ++ inlineFields escapePlain fields)
  | [], h, _, _, _ => absurd rfl h
  | [(name, v)], _, blanks, hblanks, hfinite =>
    derives_member name hblanks (derives_inline v (hfinite (name, v) (by simp)))
  | (name, v) :: next :: fields, _, blanks, hblanks, hfinite => by
    obtain ⟨hfirst, hrest⟩ := List.forall_mem_cons.mp hfinite
    have hmember := derives_member name hblanks (derives_inline v hfirst)
    have hmembers := derives_fields (next :: fields) (by simp) blanks_space hrest
    simpa [inlineFields] using Derives.members hmember hmembers

end

/-! ## Outside of strings -/

/-- Where a character of a text stands. -/
inductive Place where
  | outside
  | inside
  /-- Inside of a string, behind a backslash. -/
  | escaped

/-- The characters of a text outside of strings. -/
def unquoted : Place → List Char → List Char
  | _, [] => []
  | .outside, c :: cs => if c = '"' then unquoted .inside cs else c :: unquoted .outside cs
  | .inside, c :: cs =>
    unquoted (if c = '"' then .outside else if c = '\\' then .escaped else .inside) cs
  | .escaped, _ :: cs => unquoted .inside cs

/-- A text whose strings are closed, and what stands outside of them. -/
def Leaves (text out : List Char) : Prop :=
  ∀ rest, unquoted .outside (text ++ rest) = out ++ unquoted .outside rest

section Leaves

variable {text text' out out' : List Char}

theorem Leaves.append (h : Leaves text out) (h' : Leaves text' out') : Leaves (text ++ text') (out ++ out') := by
  intro rest
  rw [List.append_assoc, h, h', List.append_assoc]

theorem leaves_unquoted (h : ∀ c ∈ text, c ≠ '"') : Leaves text text := by
  intro rest
  induction text with
  | nil => rfl
  | cons c text ih =>
    obtain ⟨hc, htext⟩ := List.forall_mem_cons.mp h
    rw [List.cons_append, unquoted, if_neg hc, ih htext, List.cons_append]

theorem Leaves.unique (h : Leaves text out) (h' : Leaves text out') : out = out' := by
  have heq := (h []).symm.trans (h' [])
  simpa [unquoted] using heq

end Leaves

theorem unquoted_inside {c : Char} (hquote : c ≠ '"') (hslash : c ≠ '\\') (cs : List Char) :
    unquoted .inside (c :: cs) = unquoted .inside cs := by
  rw [unquoted, if_neg hquote, if_neg hslash]

theorem unquoted_hex {digits : List Char} (h : ∀ d ∈ digits, (hexValue? d).isSome) (cs : List Char) :
    unquoted .inside (digits ++ cs) = unquoted .inside cs := by
  induction digits with
  | nil => rfl
  | cons d digits ih =>
    obtain ⟨hd, hdigits⟩ := List.forall_mem_cons.mp h
    have hquote : d ≠ '"' := by
      rintro rfl
      exact absurd hd (by decide)
    have hslash : d ≠ '\\' := by
      rintro rfl
      exact absurd hd (by decide)
    rw [List.cons_append, unquoted_inside hquote hslash, ih hdigits]

theorem unquoted_piece {piece : List Char} (h : Piece piece) (cs : List Char) :
    unquoted .inside (piece ++ cs) = unquoted .inside cs := by
  cases h with
  | plain _ hquote hslash => exact unquoted_inside hquote hslash cs
  | short => rfl
  | unicode _ h => exact unquoted_hex h cs

theorem unquoted_body {body : List Char} (h : Body body) (cs : List Char) :
    unquoted .inside (body ++ cs) = unquoted .inside cs := by
  induction h with
  | nil => rfl
  | cons hpiece _ ih => rw [List.append_assoc, unquoted_piece hpiece, ih]

/-- A string leaves nothing. -/
theorem leaves_string {body : List Char} (h : Body body) : Leaves ('"' :: body ++ ['"']) [] := by
  intro rest
  rw [List.append_assoc, List.cons_append, unquoted, if_pos rfl, unquoted_body h]
  rfl

/-! ## Texts that are derived -/

/-- The first letters of the words for floats that are not finite. -/
def Marked (out : List Char) : Prop := 'N' ∈ out ∨ 'I' ∈ out

/-- The strings of the text are closed, and there is no mark outside of them. -/
def Unmarked (text : List Char) : Prop := ∃ out, Leaves text out ∧ ¬ Marked out

theorem Unmarked.append {text text' : List Char} (h : Unmarked text) (h' : Unmarked text') :
    Unmarked (text ++ text') := by
  obtain ⟨out, hleaves, hout⟩ := h
  obtain ⟨out', hleaves', hout'⟩ := h'
  refine ⟨out ++ out', hleaves.append hleaves', ?_⟩
  simp only [Marked, List.mem_append, not_or] at hout hout' ⊢
  exact ⟨⟨hout.1, hout'.1⟩, hout.2, hout'.2⟩

/-- Characters that are neither a quote nor a mark. -/
theorem unmarked_of_plain {text : List Char} (h : ∀ c ∈ text, c ≠ '"' ∧ c ≠ 'N' ∧ c ≠ 'I') : Unmarked text := by
  refine ⟨text, leaves_unquoted fun c hc => (h c hc).1, ?_⟩
  rintro (hmem | hmem)
  · exact (h 'N' hmem).2.1 rfl
  · exact (h 'I' hmem).2.2 rfl

theorem unmarked_char {c : Char} (h : c ≠ '"' ∧ c ≠ 'N' ∧ c ≠ 'I') : Unmarked [c] :=
  unmarked_of_plain (by simpa using h)

theorem unmarked_blanks {cs : List Char} (h : Blanks cs) : Unmarked cs := by
  refine unmarked_of_plain fun c hc => ?_
  have hspace := h c hc
  simp only [isSpace, Bool.or_eq_true, beq_iff_eq] at hspace
  rcases hspace with ((rfl | rfl) | rfl) | rfl <;> decide

theorem unmarked_digits {cs : List Char} (h : Digits cs) : Unmarked cs := by
  refine unmarked_of_plain fun c hc => ?_
  have hdigit := h.digit c hc
  refine ⟨?_, ?_, ?_⟩ <;> rintro rfl <;> exact absurd hdigit (by decide)

theorem unmarked_string {body : List Char} (h : Body body) : Unmarked ('"' :: body ++ ['"']) :=
  ⟨[], leaves_string h, by simp [Marked]⟩

theorem unmarked_nil : Unmarked [] := unmarked_of_plain (by simp)

theorem unmarked_sign (negative : Bool) : Unmarked (if negative then ['-'] else []) := by
  cases negative
  · exact unmarked_nil
  · exact unmarked_char (by decide)

theorem unmarked_fraction {digits cs : List Char} (h : Fraction digits cs) : Unmarked cs := by
  cases h with
  | none => exact unmarked_nil
  | point hdigits => exact (unmarked_char (by decide)).append (unmarked_digits hdigits)

theorem unmarked_exponent {e : Option Int} {cs : List Char} (h : Exponent e cs) : Unmarked cs := by
  cases h with
  | none => exact unmarked_nil
  | @mark e negative sign digits he hsign hdigits =>
    have hmark : Unmarked [e] := by rcases he with rfl | rfl <;> exact unmarked_char (by decide)
    have hsign : Unmarked sign := by
      cases hsign with
      | none => exact unmarked_nil
      | plus => exact unmarked_char (by decide)
      | minus => exact unmarked_char (by decide)
    exact hmark.append (hsign.append (unmarked_digits hdigits))

theorem unmarked_numeral {n : Numeral} {cs : List Char} (h : n.Spells cs) : Unmarked cs := by
  obtain ⟨hwhole, hfraction, hexponent⟩ := h
  exact (unmarked_digits hwhole.toDigits).append ((unmarked_fraction hfraction).append (unmarked_exponent hexponent))

theorem unmarked_comma : Unmarked [',', ' '] := unmarked_of_plain (by simp)

/-- The name of a member, with its colon. -/
theorem unmarked_label (name : String) : Unmarked (stringText escapePlain name ++ [':', ' ']) :=
  (unmarked_string (body_escapePlain name.toList)).append (unmarked_of_plain (by simp))

/-- A derived text has no mark outside of its strings. -/
theorem Derives.unmarked {part : Part} {text : List Char} (h : Derives part text) : Unmarked text := by
  induction h with
  | null => exact unmarked_of_plain (by simp)
  | true => exact unmarked_of_plain (by simp)
  | false => exact unmarked_of_plain (by simp)
  | number negative h => exact (unmarked_sign negative).append (unmarked_numeral h)
  | string h => exact unmarked_string h
  | emptyArray h | emptyObject h =>
    exact ((unmarked_char (by decide)).append (unmarked_blanks h)).append (unmarked_char (by decide))
  | array _ ih | object _ ih => exact ((unmarked_char (by decide)).append ih).append (unmarked_char (by decide))
  | element hbefore _ hbehind ih => exact ((unmarked_blanks hbefore).append ih).append (unmarked_blanks hbehind)
  | item _ ih => exact ih
  | items _ _ ih ihRest | members _ _ ih ihRest => exact ih.append ((unmarked_char (by decide)).append ihRest)
  | member hbefore hname hbehind _ ih =>
    exact (((unmarked_blanks hbefore).append (unmarked_string hname)).append (unmarked_blanks hbehind)).append
      ((unmarked_char (by decide)).append ih)

/-! ## Texts that are written -/

/-- The strings of the text are closed, and there is a mark outside of them if the statement fails. -/
def MarkedUnless (finite : Prop) (text : List Char) : Prop := ∃ out, Leaves text out ∧ (Marked out ∨ finite)

section MarkedUnless

variable {p q : Prop} {text text' : List Char}

theorem Unmarked.unless (h : Unmarked text) (hp : p) : MarkedUnless p text := by
  obtain ⟨out, hleaves, -⟩ := h
  exact ⟨out, hleaves, .inr hp⟩

theorem MarkedUnless.and (h : MarkedUnless p text) (h' : MarkedUnless q text') :
    MarkedUnless (p ∧ q) (text ++ text') := by
  obtain ⟨out, hleaves, hout⟩ := h
  obtain ⟨out', hleaves', hout'⟩ := h'
  refine ⟨out ++ out', hleaves.append hleaves', ?_⟩
  simp only [Marked, List.mem_append] at hout hout' ⊢
  tauto

theorem MarkedUnless.mono (h : MarkedUnless p text) (hpq : p → q) : MarkedUnless q text := by
  obtain ⟨out, hleaves, hout⟩ := h
  exact ⟨out, hleaves, hout.imp_right hpq⟩

/-- What is written around a text leaves the marks in it. -/
theorem MarkedUnless.around (h : MarkedUnless p text) {before behind : List Char} (hbefore : Unmarked before)
    (hbehind : Unmarked behind) : MarkedUnless p (before ++ text ++ behind) :=
  (((hbefore.unless trivial).and h).and (hbehind.unless trivial)).mono fun hall => hall.1.2

end MarkedUnless

theorem markedUnless_floatText (x : Binary64) : MarkedUnless (x.isFinite = true) (floatText x) := by
  by_cases h : x.isFinite = true
  · exact (derives_floatText h).unmarked.unless h
  · refine ⟨floatText x, leaves_unquoted ?_, .inl ?_⟩
    · cases x with
      | finite => exact absurd rfl h
      | infinite negative => cases negative <;> simp [floatText]
      | nan => simp [floatText]
    · cases x with
      | finite => exact absurd rfl h
      | infinite negative => cases negative <;> exact .inr (by decide)
      | nan => exact .inl (by decide)

mutual

/-- The text of a value has a mark outside of its strings unless the value is finite. -/
theorem markedUnless_inline : ∀ v : Json, MarkedUnless v.Finite (inline escapePlain v)
  | .null => Derives.null.unmarked.unless each_null
  | .bool true => Derives.true.unmarked.unless (each_bool true)
  | .bool false => Derives.false.unmarked.unless (each_bool false)
  | .int i => (derives_intText i).unmarked.unless (each_int.mpr rfl)
  | .float x => (markedUnless_floatText x).mono fun h => each_float.mpr h
  | .str s => (derives_stringText s).unmarked.unless (each_str s)
  | .arr items =>
    ((markedUnless_items items).around (unmarked_char (by decide)) (unmarked_char (by decide))).mono each_arr.mpr
  | .obj fields =>
    ((markedUnless_fields fields).around (unmarked_char (by decide)) (unmarked_char (by decide))).mono each_obj.mpr

theorem markedUnless_items : ∀ items : List Json,
    MarkedUnless (∀ item ∈ items, item.Finite) (inlineItems escapePlain items)
  | [] => unmarked_nil.unless (by simp)
  | [item] => (markedUnless_inline item).mono List.forall_mem_singleton.mpr
  | item :: next :: items => by
    have hrest := (markedUnless_items (next :: items)).around unmarked_comma unmarked_nil
    rw [List.append_nil] at hrest
    exact ((markedUnless_inline item).and hrest).mono List.forall_mem_cons.mpr

theorem markedUnless_fields : ∀ fields : List (String × Json),
    MarkedUnless (∀ field ∈ fields, field.2.Finite) (inlineFields escapePlain fields)
  | [] => unmarked_nil.unless (by simp)
  | [(name, v)] => by
    have hfield := (markedUnless_inline v).around (unmarked_label name) unmarked_nil
    rw [List.append_nil, List.append_assoc] at hfield
    exact hfield.mono fun h => by simpa using h
  | (name, v) :: next :: fields => by
    have hfield := (markedUnless_inline v).around (unmarked_label name) unmarked_comma
    have hall : v.Finite ∧ (∀ field ∈ next :: fields, field.2.Finite) →
        ∀ field ∈ (name, v) :: next :: fields, field.2.Finite := fun h => List.forall_mem_cons.mpr h
    simpa [inlineFields] using (hfield.and (markedUnless_fields (next :: fields))).mono hall

end

/-- The text of a value is strict iff the value has no float that is infinite or no number. -/
theorem strict_compact_iff (v : Json) : Strict v.compact.toList ↔ v.Finite := by
  unfold compact
  rw [String.toList_ofList]
  constructor
  · intro hstrict
    obtain ⟨out, hleaves, hunmarked⟩ := Derives.unmarked hstrict
    obtain ⟨out', hleaves', hmarked⟩ := markedUnless_inline v
    obtain rfl := hleaves.unique hleaves'
    exact hmarked.resolve_left hunmarked
  · exact fun hfinite => (derives_inline v hfinite).toElement

end ApiManual.Json
