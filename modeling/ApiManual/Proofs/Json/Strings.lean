import ApiManual.Json.Token
import ApiManual.Json.Writer
import Mathlib.Data.List.Basic

/-!
# Strings are read back

`Escapes` says of a way to write characters that each of them is read back. Both of those that texts are
written in do so (`escapes_escapePlain`, `escapes_escapeAscii`), and then a string is read back from the
text between its quotes (`stringBody_escaped`).
-/

namespace ApiManual.Json

open Text Token

/-! ## Hexadecimal digits -/

theorem hexValue?_digitChar : ∀ d < 16, hexValue? (Nat.digitChar d) = some d := by decide

theorem hexDigits_length (width n : Nat) : (hexDigits width n).length = width := by
  induction width generalizing n with
  | zero => rfl
  | succ width ih => simp [hexDigits, ih]

theorem hexQuad?_hexDigits {n : Nat} (h : n < 0x10000) : hexQuad? (hexDigits 4 n) = some n := by
  have hdigit : ∀ m, hexValue? (Nat.digitChar (m % 16)) = some (m % 16) :=
    fun m => hexValue?_digitChar _ (Nat.mod_lt _ (by decide))
  simp only [hexDigits, List.nil_append, List.cons_append, hexQuad?, hdigit, Option.bind_eq_bind,
    Option.bind_some, Option.some.injEq]
  omega

/-! ## Escapes -/

namespace Token

theorem stringBody_skip (start position : Nat) (xs cs : List Char) :
    stringBody start xs.length position (xs ++ cs) =
      (stringBody start 0 (position + xs.length) cs).map fun (s, n) => (s, n + xs.length) := by
  induction xs generalizing position with
  | nil => cases h : stringBody start 0 position cs <;> simp [Except.map, h]
  | cons x xs ih =>
    rw [List.length_cons, List.cons_append, stringBody, ih, show position + 1 + xs.length =
      position + (xs.length + 1) by omega]
    cases stringBody start 0 (position + (xs.length + 1)) cs <;> simp [Except.map, Nat.add_assoc]

/-- A text that is read as one character of a string, with more of the string behind it. -/
def Spells (text : List Char) (c : Char) : Prop :=
  ∀ start position cs, cs ≠ [] → stringBody start 0 position (text ++ cs) =
    (stringBody start 0 (position + text.length) cs).map fun (s, n) => (c :: s, n + text.length)

theorem spells_escape {c : Char} (xs : List Char)
    (h : ∀ start position cs, cs ≠ [] → escape start position (xs ++ cs) = .ok (c, xs.length)) :
    Spells ('\\' :: xs) c := by
  intro start position cs hcs
  rw [List.cons_append, stringBody, if_neg (by decide), if_pos rfl, h _ _ _ hcs]
  simp only [stringBody_skip]
  rw [List.length_cons, show position + 1 + xs.length = position + (xs.length + 1) by omega]
  cases stringBody start 0 (position + (xs.length + 1)) cs <;> simp [Except.map, Nat.add_assoc]

theorem spells_plain {c : Char} (hquote : c ≠ '"') (hslash : c ≠ '\\') (hcontrol : 0x20 ≤ c.toNat) :
    Spells [c] c := by
  intro start position cs _
  rw [List.singleton_append, stringBody, if_neg hquote, if_neg hslash, if_neg (by omega)]
  rfl

/-- A character is no surrogate. -/
theorem toNat_valid (c : Char) : c.toNat < 0xd800 ∨ 0xdfff < c.toNat ∧ c.toNat < 0x110000 := by
  have hvalid := c.valid
  simp only [UInt32.isValidChar, Nat.isValidChar] at hvalid
  change c.toNat < 0xd800 ∨ 0xdfff < c.toNat ∧ c.toNat < 0x110000 at hvalid
  exact hvalid

theorem unicodeEscape_hexDigits {n : Nat} (h : n < 0x10000) (hsurrogate : isHighSurrogate n = false)
    (position : Nat) {cs : List Char} (hcs : cs ≠ []) :
    unicodeEscape position (hexDigits 4 n ++ cs) = .ok (charOf n, 4) := by
  have hlength : 0 < cs.length := List.length_pos_of_ne_nil hcs
  unfold unicodeEscape
  rw [if_neg (by simp [hexDigits_length]; omega),
    List.take_left' (hexDigits_length 4 n), hexQuad?_hexDigits h]
  simp [hsurrogate]

theorem unicodeEscape_pair {high low : Nat} (hhigh : isHighSurrogate high = true)
    (hlow : isLowSurrogate low = true) (position : Nat) {cs : List Char} (hcs : cs ≠ []) :
    unicodeEscape position (hexDigits 4 high ++ '\\' :: 'u' :: (hexDigits 4 low ++ cs)) =
      .ok (Char.ofNat (0x10000 + (high - 0xd800) * 0x400 + (low - 0xdc00)), 10) := by
  have hlength : 0 < cs.length := List.length_pos_of_ne_nil hcs
  have hbound : high < 0x10000 ∧ low < 0x10000 := by
    simp only [isHighSurrogate, isLowSurrogate, Bool.and_eq_true, decide_eq_true_eq] at hhigh hlow
    omega
  unfold unicodeEscape
  rw [if_neg (by simp [hexDigits_length]; omega), List.take_left' (hexDigits_length 4 high),
    List.drop_left' (hexDigits_length 4 high), hexQuad?_hexDigits hbound.1]
  simp only [hhigh, List.length_cons, List.length_append, hexDigits_length, Bool.true_and, List.take_succ_cons,
    List.take_zero, beq_self_eq_true, Bool.and_true, List.drop_succ_cons, List.drop_zero,
    List.take_left' (hexDigits_length 4 low), hexQuad?_hexDigits hbound.2, hlow, if_true]
  rw [if_pos (by simp; omega)]

theorem spells_unicodeEscaped {c : Char} (h : c.toNat < 0x10000) : Spells (unicodeEscaped c.toNat) c := by
  have hsurrogate : isHighSurrogate c.toNat = false := by
    have := toNat_valid c
    simp only [isHighSurrogate, Bool.and_eq_false_iff, decide_eq_false_iff_not]
    omega
  have hchar : charOf c.toNat = c := by
    unfold charOf
    rw [if_neg, Char.ofNat_toNat]
    have := toNat_valid c
    simp only [Bool.and_eq_true, decide_eq_true_eq]
    omega
  refine spells_escape _ fun start position cs hcs => ?_
  rw [List.cons_append, escape, unicodeEscape_hexDigits h hsurrogate _ hcs, hchar]
  simp [Except.map, hexDigits_length]

theorem spells_surrogates {c : Char} (h : 0x10000 ≤ c.toNat) :
    Spells (unicodeEscaped (0xd800 + (c.toNat - 0x10000) / 0x400) ++
      unicodeEscaped (0xdc00 + (c.toNat - 0x10000) % 0x400)) c := by
  have hvalid := toNat_valid c
  have hhigh : isHighSurrogate (0xd800 + (c.toNat - 0x10000) / 0x400) = true := by
    simp only [isHighSurrogate, Bool.and_eq_true, decide_eq_true_eq]
    omega
  have hlow : isLowSurrogate (0xdc00 + (c.toNat - 0x10000) % 0x400) = true := by
    simp only [isLowSurrogate, Bool.and_eq_true, decide_eq_true_eq]
    omega
  have hchar : 0x10000 + (0xd800 + (c.toNat - 0x10000) / 0x400 - 0xd800) * 0x400 +
      (0xdc00 + (c.toNat - 0x10000) % 0x400 - 0xdc00) = c.toNat := by omega
  simp only [unicodeEscaped, List.cons_append]
  refine spells_escape _ fun start position cs hcs => ?_
  simp only [List.cons_append, List.append_assoc]
  rw [escape, unicodeEscape_pair hhigh hlow _ hcs, hchar, Char.ofNat_toNat]
  simp [Except.map, hexDigits_length]

theorem spells_shortEscape {c : Char} {text : List Char} (h : shortEscape? c = some text) :
    Spells text c := by
  unfold shortEscape? at h
  split_ifs at h with hc hc hc hc hc hc hc
  all_goals
    obtain rfl := Option.some.inj h
    rw [hc]
    exact spells_escape [_] fun _ _ _ _ => rfl

theorem ne_of_shortEscape {c : Char} (h : shortEscape? c = none) : c ≠ '"' ∧ c ≠ '\\' := by
  constructor <;> rintro rfl <;> simp [shortEscape?] at h

/-- Each character is read back from what is written for it. -/
def Escapes (escaped : Char → List Char) : Prop := ∀ c, Spells (escaped c) c

theorem escapes_escapeAscii : Escapes escapeAscii := by
  intro c
  unfold escapeAscii
  cases h : shortEscape? c with
  | some text => exact spells_shortEscape h
  | none =>
    obtain ⟨hquote, hslash⟩ := ne_of_shortEscape h
    simp only [Bool.and_eq_true, decide_eq_true_eq]
    split_ifs with hplain hbasic
    · exact spells_plain hquote hslash hplain.1
    · exact spells_unicodeEscaped hbasic
    · exact spells_surrogates (by omega)

/-- A string is read back from what is written for its characters. -/
theorem stringBody_escaped {escaped : Char → List Char} (hescaped : Escapes escaped) (start position : Nat)
    (s rest : List Char) :
    stringBody start 0 position (s.flatMap escaped ++ '"' :: rest) =
      .ok (s, (s.flatMap escaped).length + 1) := by
  induction s generalizing position with
  | nil => rfl
  | cons c s ih =>
    rw [List.flatMap_cons, List.append_assoc, hescaped c start position _ (by simp), ih]
    simp only [Except.map, List.length_append]
    congr 2
    omega

end Token

end ApiManual.Json
