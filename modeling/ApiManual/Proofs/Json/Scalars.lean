import ApiManual.Json.Token
import ApiManual.Proofs.Text.Lines
import Mathlib.Data.List.Find

/-!
# Where scalars end

Words and numbers are made of letters, ASCII digits, signs and points (`isScalarChar`). Reading one of them takes
no notice of what stands behind another character: `scalar?_append`. So all characters of a scalar are of this class
(`isScalarChar_of_scalar?`).
-/

namespace ApiManual.Json

open Number Text Token

/-- Characters that words and numbers are made of. -/
def isScalarChar (c : Char) : Bool := c.isAlphanum || c == '+' || c == '-' || c == '.'

theorem isScalarChar_of_isDigit {c : Char} (h : c.isDigit = true) : isScalarChar c = true := by
  simp [isScalarChar, Char.isAlphanum, h]

theorem not_isBlank_of_isScalarChar {c : Char} (h : isScalarChar c = true) : isBlank c = false := by
  by_contra hblank
  have hnot := of_isBlank (P := fun c => isScalarChar c = false) (by decide +kernel)
    (show isBlank c = true by simpa using hblank)
  rw [h] at hnot
  cases hnot

/-- No scalar goes on in the text. -/
def Stops (rest : List Char) : Prop := ∀ c ∈ rest.head?, isScalarChar c = false

variable {cs rest : List Char}

theorem Stops.head_ne (h : Stops rest) {d : Char} (hd : isScalarChar d = true) : rest.head? ≠ some d := by
  intro heq
  simp [h d heq] at hd

theorem Stops.head_append_ne (h : Stops rest) {d : Char} (hd : isScalarChar d = true) (hcs : cs.head? ≠ some d) :
    (cs ++ rest).head? ≠ some d := by
  cases cs with
  | nil => exact h.head_ne hd
  | cons c cs => simpa using hcs

theorem Stops.not_digit (h : Stops rest) : ∀ c ∈ rest.head?, c.isDigit = false := by
  intro c hc
  by_contra hdigit
  exact h.head_ne (isScalarChar_of_isDigit (by simpa using hdigit)) hc

/-! ## Digits, signs, fractions and exponents -/

section Parts

variable (h : Stops rest)

include h

theorem takeWhile_stops (cs : List Char) : (cs ++ rest).takeWhile Char.isDigit = cs.takeWhile Char.isDigit :=
  takeWhile_append_of_head h.not_digit cs

theorem dropWhile_stops (cs : List Char) :
    (cs ++ rest).dropWhile Char.isDigit = cs.dropWhile Char.isDigit ++ rest :=
  dropWhile_append_of_head h.not_digit cs

theorem takeSign_stops (cs : List Char) : takeSign (cs ++ rest) = ((takeSign cs).1, (takeSign cs).2 ++ rest) := by
  cases cs with
  | nil =>
    rw [List.nil_append]
    unfold takeSign
    split
    · exact absurd rfl (h.head_ne rfl)
    · exact absurd rfl (h.head_ne rfl)
    · rfl
  | cons c cs =>
    rw [List.cons_append]
    by_cases hminus : c = '-'
    · rw [hminus]
      rfl
    · by_cases hplus : c = '+'
      · rw [hplus]
        rfl
      · simp [takeSign, hminus, hplus]

theorem takeFraction_stops (cs : List Char) :
    takeFraction (cs ++ rest) = ((takeFraction cs).1, (takeFraction cs).2 ++ rest) := by
  cases cs with
  | nil =>
    rw [List.nil_append]
    unfold takeFraction
    split
    · exact absurd rfl (h.head_ne rfl)
    · rfl
  | cons c cs =>
    rw [List.cons_append]
    by_cases hpoint : c = '.'
    · subst hpoint
      simp only [takeFraction, takeWhile_stops h, dropWhile_stops h]
      split <;> rfl
    · simp [takeFraction, hpoint]

theorem takeExponent?_stops (cs : List Char) :
    takeExponent? (cs ++ rest) = ((takeExponent? cs).1, (takeExponent? cs).2 ++ rest) := by
  cases cs with
  | nil =>
    cases rest with
    | nil => rfl
    | cons c rest =>
      have hmark : ¬ (c = 'e' ∨ c = 'E') := by
        rintro (rfl | rfl)
        · exact h.head_ne rfl rfl
        · exact h.head_ne rfl rfl
      simp [takeExponent?, hmark]
  | cons c cs =>
    simp only [List.cons_append, takeExponent?, takeSign_stops h, takeWhile_stops h, dropWhile_stops h]
    split <;> rfl

end Parts

/-! ## Numbers and words -/

/-- Whether a minus sign stands in front, and the text behind it. -/
def takeMinus (cs : List Char) : Bool × List Char :=
  match cs with
  | '-' :: rest => (true, rest)
  | rest => (false, rest)

/-- The digits in front of a fraction. -/
def takeWhole (body : List Char) : List Char :=
  match body with
  | '0' :: _ => ['0']
  | body => body.takeWhile Char.isDigit

/-- `takeNumber?` behind the sign. -/
def takeUnsigned? (negative : Bool) (body : List Char) : Option (Json × List Char) :=
  let whole := takeWhole body
  if whole.isEmpty then none
  else
    let (fraction, rest) := takeFraction (body.drop whole.length)
    let (exponent, rest) := takeExponent? rest
    if fraction.isEmpty && exponent.isNone then
      some (.int (negateIf negative (digitsValue whole)), rest)
    else
      some (.float (.ofDecimal negative (digitsValue (whole ++ fraction))
        (exponent.getD 0 - fraction.length)), rest)

theorem takeNumber?_eq (cs : List Char) : takeNumber? cs = takeUnsigned? (takeMinus cs).1 (takeMinus cs).2 := rfl

theorem takeMinus_of_head (hminus : cs.head? ≠ some '-') : takeMinus cs = (false, cs) := by
  unfold takeMinus
  split
  · exact absurd rfl hminus
  · rfl

theorem takeWhole_of_head (hzero : cs.head? ≠ some '0') : takeWhole cs = cs.takeWhile Char.isDigit := by
  unfold takeWhole
  split
  · exact absurd rfl hzero
  · rfl

theorem takeWhole_length_le (body : List Char) : (takeWhole body).length ≤ body.length := by
  unfold takeWhole
  split
  · simp
  · exact (List.takeWhile_sublist _).length_le

section Numbers

variable (h : Stops rest)

include h

theorem takeWhole_stops (body : List Char) : takeWhole (body ++ rest) = takeWhole body := by
  by_cases hzero : body.head? = some '0'
  · obtain ⟨ds, rfl⟩ := List.head?_eq_some_iff.mp hzero
    rfl
  · rw [takeWhole_of_head hzero, takeWhole_of_head (h.head_append_ne rfl hzero), takeWhile_stops h]

theorem takeUnsigned?_stops (negative : Bool) (body : List Char) :
    takeUnsigned? negative (body ++ rest) =
      (takeUnsigned? negative body).map fun (v, left) => (v, left ++ rest) := by
  unfold takeUnsigned?
  simp only [takeWhole_stops h, List.drop_append_of_le_length (takeWhole_length_le body), takeFraction_stops h,
    takeExponent?_stops h]
  split
  · rfl
  · split <;> rfl

theorem takeMinus_stops (cs : List Char) : takeMinus (cs ++ rest) = ((takeMinus cs).1, (takeMinus cs).2 ++ rest) := by
  by_cases hminus : cs.head? = some '-'
  · obtain ⟨ds, rfl⟩ := List.head?_eq_some_iff.mp hminus
    rfl
  · rw [takeMinus_of_head hminus, takeMinus_of_head (h.head_append_ne rfl hminus)]

theorem takeNumber?_stops (cs : List Char) :
    takeNumber? (cs ++ rest) = (takeNumber? cs).map fun (v, left) => (v, left ++ rest) := by
  rw [takeNumber?_eq, takeNumber?_eq, takeMinus_stops h]
  exact takeUnsigned?_stops h _ _

theorem isPrefixOf_stops {word : List Char} (hword : ∀ c ∈ word, isScalarChar c = true) (cs : List Char) :
    word.isPrefixOf (cs ++ rest) = word.isPrefixOf cs := by
  induction word generalizing cs with
  | nil => rfl
  | cons w word ih =>
    obtain ⟨hw, hword⟩ := List.forall_mem_cons.mp hword
    cases cs with
    | nil =>
      cases rest with
      | nil => rfl
      | cons c rest =>
        have hne : w ≠ c := by
          rintro rfl
          exact h.head_ne hw rfl
        simp [List.isPrefixOf, hne]
    | cons c cs => simp [List.isPrefixOf, ih hword cs]

/-- A scalar is read without what stands behind it. -/
theorem scalar?_append (cs : List Char) : scalar? (cs ++ rest) = scalar? cs := by
  have hwords : ∀ w ∈ words, ∀ c ∈ w.1, isScalarChar c = true := by
    have hall : (words.all fun w => w.1.all isScalarChar) = true := by decide +kernel
    simpa only [List.all_eq_true] using hall
  have hfind : (words.find? fun w => w.1.isPrefixOf (cs ++ rest)) = words.find? fun w => w.1.isPrefixOf cs :=
    List.find?_congr fun w hw => isPrefixOf_stops h (hwords w hw) cs
  unfold scalar?
  rw [hfind, takeNumber?_stops h, Option.map_map]
  cases words.find? fun w => w.1.isPrefixOf cs with
  | some w => rfl
  | none =>
    simp only [Function.comp_def, List.length_append]
    congr 1
    funext taken
    congr 1
    omega

end Numbers

theorem scalar?_le {v : Json} {n : Nat} (h : scalar? cs = some (v, n)) : n ≤ cs.length := by
  unfold scalar? at h
  split at h
  · rename_i w hw
    obtain ⟨-, rfl⟩ := Prod.mk.inj (Option.some.inj h)
    have hfound := List.find?_some hw
    exact (List.isPrefixOf_iff_prefix.mp hfound).length_le
  · obtain ⟨taken, -, heq⟩ := Option.map_eq_some_iff.mp h
    obtain ⟨-, rfl⟩ := Prod.mk.inj heq
    exact Nat.sub_le ..

theorem takeFraction_le (cs : List Char) : (takeFraction cs).2.length ≤ cs.length := by
  unfold takeFraction
  split
  · simp only
    split
    · exact Nat.le_refl _
    · exact (List.dropWhile_sublist _).length_le.trans (Nat.le_succ _)
  · exact Nat.le_refl _

theorem takeSign_le (cs : List Char) : (takeSign cs).2.length ≤ cs.length := by
  unfold takeSign
  split <;> simp

theorem takeExponent?_le (cs : List Char) : (takeExponent? cs).2.length ≤ cs.length := by
  cases cs with
  | nil => exact Nat.le_refl _
  | cons c cs =>
    simp only [takeExponent?]
    split
    · exact ((List.dropWhile_sublist _).length_le.trans (takeSign_le cs)).trans (Nat.le_succ _)
    · exact Nat.le_refl _

theorem takeUnsigned?_lt {negative : Bool} {v : Json} {left : List Char}
    (h : takeUnsigned? negative cs = some (v, left)) : left.length < cs.length := by
  unfold takeUnsigned? at h
  simp only at h
  split at h
  · cases h
  · rename_i hwhole
    have hpositive : 0 < (takeWhole cs).length := List.length_pos_of_ne_nil (by simpa using hwhole)
    have hle := takeWhole_length_le cs
    have hleft : (takeExponent? (takeFraction (cs.drop (takeWhole cs).length)).2).2.length ≤
        cs.length - (takeWhole cs).length := by
      rw [← List.length_drop]
      exact (takeExponent?_le _).trans (takeFraction_le _)
    split at h <;>
    · obtain ⟨-, rfl⟩ := Prod.mk.inj (Option.some.inj h)
      omega

theorem takeMinus_le (cs : List Char) : (takeMinus cs).2.length ≤ cs.length := by
  unfold takeMinus
  split <;> simp

/-- A scalar takes one character at least. -/
theorem scalar?_pos {v : Json} {n : Nat} (h : scalar? cs = some (v, n)) : 0 < n := by
  unfold scalar? at h
  split at h
  · rename_i w hw
    have hall : (words.all fun w => decide (0 < w.1.length)) = true := by decide +kernel
    obtain ⟨-, rfl⟩ := Prod.mk.inj (Option.some.inj h)
    simpa using List.all_eq_true.mp hall w (List.mem_of_find?_eq_some hw)
  · obtain ⟨taken, htaken, heq⟩ := Option.map_eq_some_iff.mp h
    obtain ⟨-, rfl⟩ := Prod.mk.inj heq
    rw [takeNumber?_eq] at htaken
    have hlt := takeUnsigned?_lt htaken
    have hle := takeMinus_le cs
    omega

/-- A text that is read as a scalar to its end has nothing else in it. -/
theorem isScalarChar_of_scalar? {v : Json} (h : scalar? cs = some (v, cs.length)) :
    ∀ c ∈ cs, isScalarChar c = true := by
  have hparts := List.takeWhile_append_dropWhile (p := isScalarChar) (l := cs)
  have hstops : Stops (cs.dropWhile isScalarChar) := by
    intro c hc
    have hnot := List.head?_dropWhile_not isScalarChar cs
    rwa [hc] at hnot
  rw [← hparts, scalar?_append hstops] at h
  have hle := scalar?_le h
  rw [List.length_append] at hle
  have hnil : cs.dropWhile isScalarChar = [] := List.eq_nil_of_length_eq_zero (by omega)
  exact List.dropWhile_eq_nil_iff.mp hnil

def isNumber : Json → Bool
  | .int _ | .float _ => true
  | _ => false

/-- A scalar is one of the words or a number. -/
theorem word_or_number {v : Json} {n : Nat} (h : scalar? cs = some (v, n)) :
    (∃ w ∈ words, w.1 <+: cs ∧ w.2 = v) ∨ v.isNumber = true := by
  unfold scalar? at h
  split at h
  · rename_i w hw
    obtain ⟨rfl, -⟩ := Prod.mk.inj (Option.some.inj h)
    have hprefix : w.1.isPrefixOf cs = true := by simpa using List.find?_some hw
    exact .inl ⟨w, List.mem_of_find?_eq_some hw, List.isPrefixOf_iff_prefix.mp hprefix, rfl⟩
  · obtain ⟨taken, htaken, heq⟩ := Option.map_eq_some_iff.mp h
    obtain ⟨rfl, -⟩ := Prod.mk.inj heq
    rw [takeNumber?_eq] at htaken
    unfold takeUnsigned? at htaken
    simp only at htaken
    split at htaken
    · cases htaken
    · split at htaken <;>
      · obtain rfl := Option.some.inj htaken
        exact .inr rfl

/-- A scalar is no list, no object and no text. -/
theorem plain_of_scalar? {v : Json} {n : Nat} (h : scalar? cs = some (v, n)) :
    v.isContainer = false ∧ ∀ s, v ≠ .str s := by
  rcases word_or_number h with ⟨w, hw, -, rfl⟩ | hnumber
  · simp only [words, List.mem_cons, List.not_mem_nil, or_false] at hw
    rcases hw with rfl | rfl | rfl | rfl | rfl | rfl <;> exact ⟨rfl, nofun⟩
  · cases v with
    | int | float => exact ⟨rfl, nofun⟩
    | _ => cases hnumber

/-- A scalar that begins with a decimal digit is a number. -/
theorem isNumber_of_scalar? {c : Char} {v : Json} {n : Nat} (h : scalar? (c :: cs) = some (v, n))
    (hc : isDecimal c = true) : v.isNumber = true := by
  rcases word_or_number h with ⟨w, hw, hprefix, -⟩ | hnumber
  · have hall : (words.all fun w => w.1.head?.any fun c => !isDecimal c) = true := by decide +kernel
    have hword := List.all_eq_true.mp hall w hw
    cases hchars : w.1 with
    | nil => simp [hchars] at hword
    | cons d ds =>
      rw [hchars, List.cons_prefix_cons] at hprefix
      obtain ⟨rfl, -⟩ := hprefix
      simp [hchars, hc] at hword
  · exact hnumber

end ApiManual.Json
