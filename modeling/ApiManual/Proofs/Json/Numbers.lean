import ApiManual.Proofs.Json.Scalars
import ApiManual.Proofs.Json.Within
import ApiManual.Proofs.Number.Shortest
import ApiManual.Json.Writer

/-!
# Numbers are read to their end

A `Numeral` holds the digits of a number, and `Numeral.Spells` says how it may be written: digits without
zeros at the start, then perhaps a fraction and an exponent. In front of the end of an item, reading takes
all of it (`scalar?_number`).

* `decimalText_spells`: the text of a decimal is that of a numeral with its value.
* `scalar?_floatText`: a finite number is read back as a finite number.
-/

namespace ApiManual.Json

open Number

/-! ## The value of digits -/

theorem digitsValue_append (cs ds : List Char) :
    digitsValue (cs ++ ds) = digitsValue cs * 10 ^ ds.length + digitsValue ds := by
  induction ds using List.reverseRecOn with
  | nil => simp [digitsValue]
  | append_singleton ds d ih =>
    have hlast : ∀ cs : List Char, digitsValue (cs ++ [d]) = 10 * digitsValue cs + (d.toNat - 48) := by
      intro cs
      simp [digitsValue]
    rw [← List.append_assoc, hlast, hlast, ih, List.length_append, List.length_singleton, pow_succ]
    ring

theorem digitsValue_zeros (n : Nat) : digitsValue (List.replicate n '0') = 0 := by
  induction n with
  | zero => rfl
  | succ n ih =>
    rw [List.replicate_succ', digitsValue_append, ih]
    simp [digitsValue]

theorem digitsValue_decimalDigits (n : Nat) : digitsValue (Binary64.decimalDigits n) = n :=
  Nat.ofDigitChars_toDigits (by norm_num) (by norm_num)

/-! ## The parts of a number -/

/-- One digit or more. -/
structure Digits (cs : List Char) : Prop where
  nonempty : cs ≠ []
  digit : ∀ c ∈ cs, c.isDigit = true

/-- Digits that begin with a zero only if it is all there is. -/
structure Whole (cs : List Char) : Prop extends Digits cs where
  head : cs.head? = some '0' → cs = ['0']

/-- The digits of a fraction, if there is one. -/
inductive Fraction : List Char → List Char → Prop where
  | none : Fraction [] []
  | point {digits : List Char} (h : Digits digits) : Fraction digits ('.' :: digits)

/-- A sign that may be left out; it says whether the number is negative. -/
inductive Sign : Bool → List Char → Prop where
  | none : Sign false []
  | plus : Sign false ['+']
  | minus : Sign true ['-']

/-- The value of an exponent, if there is one. -/
inductive Exponent : Option Int → List Char → Prop where
  | none : Exponent none []
  | mark {e : Char} {negative : Bool} {sign digits : List Char} (he : e = 'e' ∨ e = 'E')
      (hsign : Sign negative sign) (h : Digits digits) :
      Exponent (some (negateIf negative (digitsValue digits))) (e :: (sign ++ digits))

/-- The parts of a number without its sign. -/
structure Numeral where
  whole : List Char
  fraction : List Char
  exponent : Option Int

namespace Numeral

/-- The text is one of the number without its sign. -/
inductive Spells (n : Numeral) : List Char → Prop where
  | mk {fraction exponent : List Char} (hwhole : Whole n.whole) (hfraction : Fraction n.fraction fraction)
      (hexponent : Exponent n.exponent exponent) : Spells n (n.whole ++ (fraction ++ exponent))

/-- The number is written without fraction and exponent. -/
def isWhole (n : Numeral) : Bool := n.fraction.isEmpty && n.exponent.isNone

/-- All digits in one. -/
def digits (n : Numeral) : Nat := digitsValue (n.whole ++ n.fraction)

/-- The decimal place of the last digit. -/
def place (n : Numeral) : Int := n.exponent.getD 0 - n.fraction.length

/-- The value that is read. -/
def value (negative : Bool) (n : Numeral) : Json :=
  if n.isWhole then .int (negateIf negative (digitsValue n.whole))
  else .float (.ofDecimal negative n.digits n.place)

end Numeral

/-- What can stand behind an item: nothing, a comma or a closing bracket. -/
def AtEnd (rest : List Char) : Prop := ∀ c ∈ rest.head?, c = ',' ∨ c = ']' ∨ c = '\x7d'

/-! ## Reading -/

open Token

section Reading

variable {cs rest : List Char}

theorem AtEnd.stops (h : AtEnd rest) : Stops rest := by
  intro c hc
  rcases h c hc with rfl | rfl | rfl <;> rfl

theorem takeWhile_digits (h : Digits cs) (hrest : ∀ c ∈ rest.head?, c.isDigit = false) :
    (cs ++ rest).takeWhile Char.isDigit = cs := by
  rw [Text.takeWhile_append_of_head hrest, List.takeWhile_eq_self_iff.mpr h.digit]

theorem dropWhile_digits (h : Digits cs) (hrest : ∀ c ∈ rest.head?, c.isDigit = false) :
    (cs ++ rest).dropWhile Char.isDigit = rest := by
  rw [Text.dropWhile_append_of_head hrest, List.dropWhile_eq_nil_iff.mpr h.digit, List.nil_append]

theorem takeSign_append {negative : Bool} {sign : List Char} (hsign : Sign negative sign) (h : Digits cs) :
    takeSign (sign ++ cs) = (negative, cs) := by
  cases hsign with
  | none =>
    rw [List.nil_append]
    unfold takeSign
    split
    · exact absurd (h.digit '-' List.mem_cons_self) (by decide)
    · exact absurd (h.digit '+' List.mem_cons_self) (by decide)
    · rfl
  | plus => rfl
  | minus => rfl

theorem takeExponent?_exponent {e : Option Int} (h : Exponent e cs) : takeExponent? cs = (e, []) := by
  cases h with
  | none => rfl
  | @mark e negative sign digits he hsign h =>
    have htake := takeSign_append hsign h
    simp only [takeExponent?, htake, List.takeWhile_eq_self_iff.mpr h.digit, List.dropWhile_eq_nil_iff.mpr h.digit]
    rw [if_pos ⟨he, h.nonempty⟩]

theorem exponent_not_digit {e : Option Int} (h : Exponent e cs) : ∀ c ∈ cs.head?, c.isDigit = false := by
  cases h with
  | none => simp
  | mark he => rcases he with rfl | rfl <;> simp

theorem takeFraction_append {fraction : List Char} (h : Fraction fraction cs) {e : Option Int}
    {exponent : List Char} (hexponent : Exponent e exponent) :
    takeFraction (cs ++ exponent) = (fraction, exponent) := by
  have hnot := exponent_not_digit hexponent
  cases h with
  | none =>
    rw [List.nil_append]
    unfold takeFraction
    split
    · cases hexponent with
      | mark he => exact absurd he (by decide)
    · rfl
  | point h =>
    simp only [List.cons_append, takeFraction, takeWhile_digits h hnot, dropWhile_digits h hnot]
    rw [if_neg (by simpa using h.nonempty)]

theorem fraction_not_digit {fraction : List Char} (h : Fraction fraction cs) {e : Option Int}
    {exponent : List Char} (hexponent : Exponent e exponent) : ∀ c ∈ (cs ++ exponent).head?, c.isDigit = false := by
  cases h with
  | none =>
    rw [List.nil_append]
    exact exponent_not_digit hexponent
  | point => simp

/-- A number is taken as a whole. -/
theorem takeNumber?_spelled {n : Numeral} (h : n.Spells cs) (negative : Bool) :
    takeNumber? ((if negative then ['-'] else []) ++ cs) = some (n.value negative, []) := by
  obtain @⟨fraction, exponent, hwhole, hfraction, hexponent⟩ := h
  have hdigits := takeFraction_append hfraction hexponent
  have he := takeExponent?_exponent hexponent
  have hbehind := fraction_not_digit hfraction hexponent
  obtain ⟨whole, fractionDigits, e⟩ := n
  simp only at hwhole hdigits he ⊢
  generalize fraction ++ exponent = behind at hdigits hbehind
  unfold Numeral.value Numeral.isWhole Numeral.digits Numeral.place
  simp only [apply_ite (fun v : Json => some (v, ([] : List Char)))]
  cases whole with
  | nil => exact absurd rfl hwhole.nonempty
  | cons d ws =>
  have hminus : d ≠ '-' := by
    rintro rfl
    exact absurd (hwhole.digit '-' (by simp)) (by decide)
  have hdigitsOf : List.takeWhile Char.isDigit (d :: (ws ++ behind)) = d :: ws :=
    takeWhile_digits hwhole.toDigits hbehind
  by_cases hzero : d = '0'
  · obtain ⟨rfl, rfl⟩ : d = '0' ∧ ws = [] := by simpa [hzero] using hwhole.head
    cases negative <;> simp [takeNumber?, hdigits, he]
  · cases negative <;> simp [takeNumber?, hdigitsOf, hdigits, he, hzero, hminus]

end Reading

/-! ## Scalars -/

theorem words_digit {d : Char} (hd : d.isDigit = true) (cs : List Char) (negative : Bool) :
    words.find? (fun w => w.1.isPrefixOf ((if negative then ['-'] else []) ++ d :: cs)) = none := by
  have hne : ∀ c : Char, c.isDigit = false → c ≠ d := by
    rintro c hc rfl
    simp [hd] at hc
  cases negative <;>
    simp [words, List.isPrefixOf, hne 'n' (by decide), hne 't' (by decide), hne 'f' (by decide),
      hne 'N' (by decide), hne 'I' (by decide), hne '-' (by decide)]

/-- A number in front of the end of an item is read as a scalar that takes all of it. -/
theorem scalar?_number {n : Numeral} {cs rest : List Char} (h : n.Spells cs) (hrest : AtEnd rest) (negative : Bool) :
    scalar? ((if negative then ['-'] else []) ++ cs ++ rest) =
      some (n.value negative, ((if negative then ['-'] else []) ++ cs).length) := by
  have hfind : words.find? (fun w => w.1.isPrefixOf ((if negative then ['-'] else []) ++ cs)) = none := by
    obtain @⟨fraction, exponent, hwhole, -, -⟩ := h
    generalize n.whole = whole at hwhole
    cases whole with
    | nil => exact absurd rfl hwhole.nonempty
    | cons d ws => simpa using words_digit (hwhole.digit d (by simp)) _ negative
  rw [scalar?_append hrest.stops]
  unfold scalar?
  rw [hfind, takeNumber?_spelled h]
  rfl

/-! ## Numbers that are written -/

theorem decimalDigits_digits (n : Nat) : Digits (Binary64.decimalDigits n) where
  nonempty := Nat.toDigits_ne_nil
  digit _ hc := Nat.isDigit_of_mem_toDigits (by decide) (by decide) hc

theorem Digits.append {cs ds : List Char} (h : Digits cs) (hds : ∀ c ∈ ds, c.isDigit = true) :
    Digits (cs ++ ds) where
  nonempty := by simp [h.nonempty]
  digit c hc := (List.mem_append.mp hc).elim (h.digit c) (hds c)

theorem zeros_digit (n : Nat) : ∀ c ∈ List.replicate n '0', c.isDigit = true := by
  intro c hc
  rw [List.eq_of_mem_replicate hc]
  decide

/-- Zeros may stand before digits. -/
theorem Digits.padded {cs : List Char} (h : Digits cs) (n : Nat) : Digits (List.replicate n '0' ++ cs) where
  nonempty := by simp [h.nonempty]
  digit c hc := (List.mem_append.mp hc).elim (zeros_digit n c) (h.digit c)

theorem digitsValue_padded (n : Nat) (cs : List Char) :
    digitsValue (List.replicate n '0' ++ cs) = digitsValue cs := by
  rw [digitsValue_append, digitsValue_zeros, Nat.zero_mul, Nat.zero_add]

theorem head?_decimalDigits {n : Nat} (h : n ≠ 0) : (Binary64.decimalDigits n).head? ≠ some '0' := by
  have hdigit : ∀ d < 10, d ≠ 0 → Nat.digitChar d ≠ '0' := by decide
  unfold Binary64.decimalDigits
  induction n using Nat.strongRecOn with
  | ind n ih =>
    rw [Nat.toDigits_eq_if (by decide)]
    split_ifs with hlt
    · simpa using hdigit n hlt h
    · rw [List.head?_append_of_ne_nil _ Nat.toDigits_ne_nil]
      exact ih (n / 10) (by omega) (by omega)

theorem decimalDigits_whole (n : Nat) : Whole (Binary64.decimalDigits n) where
  toDigits := decimalDigits_digits n
  head hhead := by
    by_cases h : n = 0
    · rw [h]
      rfl
    · exact absurd hhead (head?_decimalDigits h)

/-- Digits that do not begin with a zero stay whole with more digits behind them. -/
theorem whole_append {cs ds : List Char} (h : Digits cs) (hhead : cs.head? ≠ some '0')
    (hds : ∀ c ∈ ds, c.isDigit = true) : Whole (cs ++ ds) where
  toDigits := h.append hds
  head hzero := by
    rw [List.head?_append_of_ne_nil _ h.nonempty] at hzero
    exact absurd hzero hhead

theorem whole_singleton {d : Char} (h : d.isDigit = true) : Whole [d] :=
  ⟨⟨by simp, by simpa using h⟩, by simp⟩

theorem zero_digits : Digits ['0'] := ⟨by simp, zeros_digit 1⟩

theorem exponentText_exponent (e : Int) : Exponent (some e) (Binary64.exponentText e) := by
  have hdigits := (decimalDigits_digits e.natAbs).padded (2 - (Binary64.decimalDigits e.natAbs).length)
  have hvalue : negateIf (decide (e < 0)) (digitsValue (List.replicate
      (2 - (Binary64.decimalDigits e.natAbs).length) '0' ++ Binary64.decimalDigits e.natAbs)) = e := by
    rw [digitsValue_padded, digitsValue_decimalDigits]
    unfold negateIf
    by_cases h : e < 0
    · rw [if_pos (by simpa using h)]
      omega
    · rw [if_neg (by simpa using h)]
      omega
  have hsign : Sign (decide (e < 0)) [if e < 0 then '-' else '+'] := by
    by_cases h : e < 0
    · simpa [h] using Sign.minus
    · simpa [h] using Sign.plus
  have hmark := Exponent.mark (e := 'e') (.inl rfl) hsign hdigits
  rw [hvalue] at hmark
  exact hmark

/-- The numeral is no whole number, and its value is that of the decimal. -/
structure Numeral.Tells (n : Numeral) (digits : Nat) (exponent : Int) : Prop where
  fractional : n.isWhole = false
  value : (n.digits : ℚ) * 10 ^ n.place = digits * 10 ^ exponent

theorem Numeral.Tells.of_eq {n : Numeral} {digits : Nat} {exponent : Int} (hfractional : n.isWhole = false)
    (hdigits : n.digits = digits) (hplace : n.place = exponent) : n.Tells digits exponent :=
  ⟨hfractional, by rw [hdigits, hplace]⟩

theorem Numeral.Spells.of_eq {n : Numeral} {fraction exponent text : List Char} (hwhole : Whole n.whole)
    (hfraction : Fraction n.fraction fraction) (hexponent : Exponent n.exponent exponent)
    (htext : text = n.whole ++ (fraction ++ exponent)) : n.Spells text :=
  htext ▸ .mk hwhole hfraction hexponent

/-! ### Where the point stands -/

section Point

variable {ds : List Char} (h : Digits ds) (exponent : Int)

include h

/-- Behind the first digit, with an exponent. -/
theorem exponential_spells {d : Char} {rest : List Char} (hds : ds = d :: rest) {fraction : List Char}
    (hfraction : Fraction rest fraction) :
    ∃ n : Numeral, n.Spells (d :: (fraction ++ Binary64.exponentText (exponent + ds.length - 1))) ∧
      n.digits = digitsValue ds ∧ n.place = exponent ∧ n.isWhole = false := by
  have hd : d.isDigit = true := h.digit d (by simp [hds])
  refine ⟨⟨[d], rest, some (exponent + ds.length - 1)⟩,
    .of_eq (whole_singleton hd) hfraction (exponentText_exponent _) rfl, ?_, ?_, ?_⟩
  · rw [hds]
    rfl
  · simp [Numeral.place, hds]
    omega
  · simp [Numeral.isWhole]

/-- In front of zeros in front of the digits. -/
theorem leadingZeros_spells (hsmall : exponent + ds.length - 1 < 0) :
    ∃ n : Numeral, n.Spells ('0' :: '.' :: List.replicate (-(exponent + ds.length - 1) - 1).toNat '0' ++ ds) ∧
      n.digits = digitsValue ds ∧ n.place = exponent ∧ n.isWhole = false := by
  generalize hzeros : (-(exponent + ds.length - 1) - 1).toNat = zeros
  refine ⟨⟨['0'], List.replicate zeros '0' ++ ds, none⟩,
    .of_eq (whole_singleton rfl) (.point (h.padded zeros)) .none (by simp), ?_, ?_, ?_⟩
  · rw [← digitsValue_padded (zeros + 1) ds]
    simp [Numeral.digits, List.replicate_succ]
  · simp [Numeral.place]
    omega
  · simp [Numeral.isWhole, h.nonempty]

/-- Behind zeros behind the digits. -/
theorem trailingZeros_spells (hhead : ds.head? ≠ some '0') (zeros : Nat) :
    ∃ n : Numeral, n.Spells (ds ++ List.replicate zeros '0' ++ ['.', '0']) ∧
      n.digits = digitsValue ds * 10 ^ (zeros + 1) ∧ n.place = -1 ∧ n.isWhole = false := by
  refine ⟨⟨ds ++ List.replicate zeros '0', ['0'], none⟩,
    .of_eq (whole_append h hhead (zeros_digit zeros)) (.point zero_digits) .none (by simp), ?_, rfl, rfl⟩
  rw [Numeral.digits, digitsValue_append, digitsValue_append, digitsValue_zeros, List.length_replicate, pow_succ]
  simp [digitsValue, Nat.mul_assoc]

/-- Among the digits. -/
theorem pointed_spells (hhead : ds.head? ≠ some '0') (place : Nat) (hpositive : 0 < place)
    (hplace : exponent + ds.length = place) (hnegative : exponent < 0) :
    ∃ n : Numeral, n.Spells (ds.take place ++ '.' :: ds.drop place) ∧
      n.digits = digitsValue ds ∧ n.place = exponent ∧ n.isWhole = false := by
  have hfraction : Digits (ds.drop place) :=
    ⟨by simp; omega, fun c hc => h.digit c (List.mem_of_mem_drop hc)⟩
  have hstart : (ds.take place).head? ≠ some '0' := by
    rw [List.head?_take, if_neg (by omega)]
    exact hhead
  have hwhole : Whole (ds.take place) :=
    ⟨⟨by simp [h.nonempty]; omega, fun c hc => h.digit c (List.mem_of_mem_take hc)⟩, fun h => absurd h hstart⟩
  refine ⟨⟨ds.take place, ds.drop place, none⟩, .of_eq hwhole (.point hfraction) .none (by simp), ?_, ?_, ?_⟩
  · simp [Numeral.digits]
  · simp [Numeral.place]
    omega
  · simpa [Numeral.isWhole] using hfraction.nonempty

end Point

/-- A decimal is written as a numeral with its value. -/
theorem decimalText_spells (digits : Nat) (exponent : Int) :
    ∃ n : Numeral, n.Spells (Binary64.decimalText digits exponent) ∧ n.Tells digits exponent := by
  have h := decimalDigits_digits digits
  have hvalue := digitsValue_decimalDigits digits
  have hhead : digits ≠ 0 → (Binary64.decimalDigits digits).head? ≠ some '0' := head?_decimalDigits
  unfold Binary64.decimalText
  generalize Binary64.decimalDigits digits = ds at h hvalue hhead
  have hlength : 0 < ds.length := List.length_pos_of_ne_nil h.nonempty
  simp only
  split_ifs with hzero hfar hsmall hlarge
  · refine ⟨⟨['0'], ['0'], none⟩, .mk (whole_singleton rfl) (.point zero_digits) .none, rfl, ?_⟩
    simp [Numeral.digits, digitsValue, hzero]
  · split
    · obtain ⟨n, hspells, hdigits, hplace, hfractional⟩ := exponential_spells h exponent rfl .none
      exact ⟨n, hspells, .of_eq hfractional (hdigits.trans hvalue) hplace⟩
    · rename_i d rest hrest
      have hfraction : Digits rest := ⟨fun hnil => hrest (by simp [hnil]), fun c hc => h.digit c (by simp [hc])⟩
      obtain ⟨n, hspells, hdigits, hplace, hfractional⟩ := exponential_spells h exponent rfl (.point hfraction)
      exact ⟨n, hspells, .of_eq hfractional (hdigits.trans hvalue) hplace⟩
    · exact absurd rfl h.nonempty
  · obtain ⟨n, hspells, hdigits, hplace, hfractional⟩ := leadingZeros_spells h exponent hsmall
    exact ⟨n, hspells, .of_eq hfractional (hdigits.trans hvalue) hplace⟩
  · obtain ⟨zeros, rfl⟩ := Int.eq_ofNat_of_zero_le hlarge
    obtain ⟨n, hspells, hdigits, hplace, hfractional⟩ := trailingZeros_spells h (hhead hzero) zeros
    refine ⟨n, hspells, hfractional, ?_⟩
    rw [hdigits, hplace, hvalue, pow_succ]
    simp [mul_assoc]
  · obtain ⟨n, hspells, hdigits, hplace, hfractional⟩ := pointed_spells h exponent (hhead hzero)
      (exponent + ds.length - 1 + 1).toNat (by omega) (by omega) (by omega)
    exact ⟨n, hspells, .of_eq hfractional (hdigits.trans hvalue) hplace⟩

theorem decimalDigits_spells (n : Nat) :
    (Numeral.mk (Binary64.decimalDigits n) [] none).Spells (Binary64.decimalDigits n) :=
  .of_eq (decimalDigits_whole n) .none .none (List.append_nil _).symm

theorem scalar?_intText (i : Int) {rest : List Char} (hrest : AtEnd rest) :
    scalar? (intText i ++ rest) = some (.int i, (intText i).length) := by
  have hnumber := scalar?_number (decimalDigits_spells i.natAbs) hrest (decide (i < 0))
  have hvalue : Numeral.value (decide (i < 0)) ⟨Binary64.decimalDigits i.natAbs, [], none⟩ = .int i := by
    have hsigned : (if decide (i < 0) = true then -(i.natAbs : Int) else i.natAbs) = i := by
      simp only [decide_eq_true_eq]
      split <;> omega
    simp only [Numeral.value, Numeral.isWhole, digitsValue_decimalDigits, negateIf, hsigned]
    rfl
  rw [hvalue] at hnumber
  by_cases h : i < 0 <;> simpa [intText, h] using hnumber

/-- The float that is read from the text of a float is finite if that is. -/
theorem scalar?_floatText (x : Binary64) {rest : List Char} (hrest : AtEnd rest) :
    ∃ y, scalar? (floatText x ++ rest) = some (.float y, (floatText x).length) ∧
      (x.InRange → x.isFinite = true → y.isFinite = true) := by
  cases x with
  | nan => exact ⟨_, rfl, fun _ h => absurd h (by decide)⟩
  | infinite negative => cases negative <;> exact ⟨_, rfl, fun _ h => absurd h (by decide)⟩
  | finite negative significand exponent =>
    obtain ⟨n, hspells, htells⟩ := decimalText_spells (Binary64.shortest significand exponent).1
      (Binary64.shortest significand exponent).2
    have hvalue : n.value negative = .float (.ofDecimal negative n.digits n.place) := by
      unfold Numeral.value
      rw [if_neg (by simp [htells.fractional])]
    have hread := scalar?_number hspells hrest negative
    rw [hvalue] at hread
    refine ⟨_, hread, fun hrange _ => ?_⟩
    have hlt := Binary64.shortest_lt_limit hrange.1 hrange.2
    rw [← htells.value] at hlt
    exact Binary64.ofDecimal_isFinite negative hlt

end ApiManual.Json
