import ApiManual.Number.Binary64
import ApiManual.Text.Blank
import ApiManual.Text.Digit
import ApiManual.Text.Search

/-!
# Numerals

`readInteger?` and `readFloat?` read a number from a text with blanks around it. Digits may be of any
script, and single underscores may stand between digits. An integer has `maxDigits` digits at most.
`readFloat?` also takes `inf`, `infinity` and `nan` in any letter case.
-/

namespace ApiManual.Number

open Text

/-- Blanks allowed around a numeral: all but the information separators. -/
def isPadding (c : Char) : Bool := isBlank c && !(0x1c ≤ c.toNat && c.toNat ≤ 0x1f)

/-- Decimal digits of any script as ASCII digits. -/
def plainDigits (cs : List Char) : List Char :=
  cs.map fun c => match decimalValue? c with
    | some d => Nat.digitChar d
    | none => c

/-- Drop underscores; each must stand between two digits. -/
def dropUnderscores? : Bool → List Char → Option (List Char)
  | _, [] => some []
  | afterDigit, c :: cs =>
    if c = '_' then
      if afterDigit && cs.head?.any Char.isDigit then dropUnderscores? false cs else none
    else (dropUnderscores? c.isDigit cs).map (c :: ·)

/-- The characters of a numeral in plain form. -/
def plain? (cs : List Char) : Option (List Char) :=
  dropUnderscores? false (plainDigits (trimBy isPadding cs))

/-- Whether a minus sign stands in front, and the text behind the sign. -/
def takeSign : List Char → Bool × List Char
  | '-' :: cs => (true, cs)
  | '+' :: cs => (false, cs)
  | cs => (false, cs)

def digitsValue (cs : List Char) : Nat := cs.foldl (fun n c => 10 * n + (c.toNat - 48)) 0

def negateIf (negative : Bool) (n : Nat) : Int := if negative then -(n : Int) else n

/-- The most digits of an integer that is read. -/
def maxDigits : Nat := 4300

/-- Whether a number can be written in so many digits. -/
def fits : Nat → Nat → Bool
  | 0, n => n == 0
  | digits + 1, n => n < 10 || fits digits (n / 10)

theorem fits_iff {digits n : Nat} : fits digits n = true ↔ n < Nat.pow 10 digits := by
  induction digits generalizing n with
  | zero =>
    rw [fits, beq_iff_eq]
    exact Nat.lt_one_iff.symm
  | succ digits ih =>
    have hpos : 0 < Nat.pow 10 digits := Nat.pow_pos (by decide)
    have hpow : Nat.pow 10 (digits + 1) = Nat.pow 10 digits * 10 := rfl
    rw [fits, Bool.or_eq_true, decide_eq_true_eq, ih, hpow]
    omega

def readInteger? (cs : List Char) : Option Int := do
  let (negative, digits) := takeSign (← plain? cs)
  if !digits.isEmpty && digits.all Char.isDigit && digits.length ≤ maxDigits then
    some (negateIf negative (digitsValue digits))
  else none

/-- What follows the digits of a decimal: nothing, or `e`, a sign and digits. -/
def readExponent? : List Char → Option Int
  | [] => some 0
  | c :: cs =>
    let (negative, digits) := takeSign cs
    if (c = 'e' ∨ c = 'E') ∧ digits ≠ [] ∧ digits.all Char.isDigit then
      some (negateIf negative (digitsValue digits))
    else none

/-- Digits with a point among, before or after them, then an exponent. -/
def readDecimal? (negative : Bool) (cs : List Char) : Option Binary64 := do
  let whole := cs.takeWhile Char.isDigit
  let rest := cs.dropWhile Char.isDigit
  let (fraction, rest) := match rest with
    | '.' :: rest => (rest.takeWhile Char.isDigit, rest.dropWhile Char.isDigit)
    | rest => ([], rest)
  if whole.isEmpty && fraction.isEmpty then none
  else
    let exponent ← readExponent? rest
    some (.ofDecimal negative (digitsValue (whole ++ fraction)) (exponent - fraction.length))

/-- A sign, then a decimal or one of the words `inf`, `infinity` and `nan`. -/
def readPlainFloat? (cs : List Char) : Option Binary64 :=
  let (negative, body) := takeSign cs
  let word := String.ofList (body.map Char.toLower)
  if word = "inf" ∨ word = "infinity" then some (.infinite negative)
  else if word = "nan" then some .nan
  else readDecimal? negative body

def readFloat? (cs : List Char) : Option Binary64 := (plain? cs).bind readPlainFloat?

/-! ## Numerals in settings -/

/-- Drop underscores that stand alone and inside the text. -/
def dropInnerUnderscores? (cs : List Char) : Option (List Char) :=
  let parts := splitOn '_' cs
  if parts.all fun part => !part.isEmpty then some parts.flatten else none

/-- What is left of a number behind zeros and underscores at its start: from the first other digit or a
minus sign on, or from the character in front of a point; of zeros alone the last one. -/
def behindZeros? (last : Char) : List Char → Option (List Char)
  | [] => some [last]
  | c :: cs =>
    if c = '0' ∨ c = '_' then behindZeros? c cs
    else if ('1' ≤ c ∧ c ≤ '9') ∨ c = '-' then some (c :: cs)
    else if c = '.' then some (last :: c :: cs)
    else none

/-- Drop zeros at the start of a number. -/
def dropZeros? : List Char → Option (List Char)
  | [] => none
  | c :: cs =>
    if c = '0' then behindZeros? c cs
    else if ('1' ≤ c ∧ c ≤ '9') ∨ c = '-' then some (c :: cs)
    else none

/-- Drop a point with nothing but zeros behind it, of which there is one at least. -/
def dropZeroFraction (cs : List Char) : List Char :=
  match cs.dropWhile (· != '.') with
  | _ :: fraction =>
    if !fraction.isEmpty && fraction.all (· == '0') then cs.takeWhile (· != '.') else cs
  | [] => cs

/-- Digits, with a minus sign in front unless there was one before. -/
def signedDigits? (negative : Bool) (cs : List Char) : Option Int :=
  let (minus, digits) := match negative, cs with
    | false, '-' :: digits => (true, digits)
    | negative, digits => (negative, digits)
  if !digits.isEmpty && digits.all Char.isDigit then some (negateIf minus (digitsValue digits)) else none

/-- A whole number in ASCII digits, perhaps with a fraction of zeros. Zeros at its start take underscores
and even a sign behind them. -/
def readWholeNumber? (cs : List Char) : Option Int := do
  let (negative, body) := takeSign (trimBy isPadding cs)
  let digits := dropZeroFraction (← dropZeros? body)
  if body.head? = some '-' then none
  else signedDigits? negative ((dropInnerUnderscores? digits).getD digits)

/-- A float in ASCII digits. -/
def readSettingFloat? (cs : List Char) : Option Binary64 :=
  (readPlainFloat? (trimBy isPadding cs)).or ((dropInnerUnderscores? cs).bind readPlainFloat?)

end ApiManual.Number
