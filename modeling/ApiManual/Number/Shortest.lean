import ApiManual.Number.Binary64

/-!
# Shortest decimals

`Binary64.shortest` finds the fewest digits that read back as the number, and of these the nearest to
it; a tie goes to the even digit. `Binary64.text` writes them: positional from `1e-4` up to below
`1e16`, with a point in every number, and in exponent form otherwise.
-/

namespace ApiManual.Binary64

/-! ## Choice of the digits -/

/-- Compare `digits · 10 ^ exponent` with `num / den`. -/
def compareDecimal (digits : Nat) (exponent : Int) (num den : Nat) : Ordering :=
  let scaled := scaleRatio 10 exponent num den
  compare (digits * scaled.2) scaled.1

/-- The reals that round to `significand · 2 ^ exponent`, in quarters of the last bit: from the lower
to the upper bound, both included iff the significand is even. -/
structure Interval where
  lower : Nat × Nat
  upper : Nat × Nat
  closed : Bool

/-- Below a power of two the numbers lie twice as close. -/
def interval (significand : Nat) (exponent : Int) : Interval :=
  let below := if significand == Nat.pow 2 52 && exponent > -1074 then 1 else 2
  { lower := ratio (4 * significand - below) (exponent - 2)
    upper := ratio (4 * significand + 2) (exponent - 2)
    closed := significand % 2 == 0 }

def Interval.holds (i : Interval) (digits : Nat) (exponent : Int) : Bool :=
  let low := compareDecimal digits exponent i.lower.1 i.lower.2
  let high := compareDecimal digits exponent i.upper.1 i.upper.2
  (low == .gt || (i.closed && low == .eq)) && (high == .lt || (i.closed && high == .eq))

/-- The decimal exponent of the leading digit of a positive ratio. -/
def floorLog10 (num den : Nat) : Int :=
  let guess := floorLog2 num den * 1233 / 4096
  if compareDecimal 1 (guess + 1) num den != .gt then guess + 1
  else if compareDecimal 1 guess num den == .gt then guess - 1
  else guess

/-- The decimal with the last digit at `10 ^ exponent` that lies in the interval and next to the
number `num / den`. -/
def onGrid? (i : Interval) (num den : Nat) (exponent : Int) : Option (Nat × Int) :=
  let scaled := scaleRatio 10 exponent num den
  let low := scaled.1 / scaled.2
  match i.holds low exponent, i.holds (low + 1) exponent with
  | true, true => some (roundHalfEven scaled.1 scaled.2, exponent)
  | true, false => some (low, exponent)
  | false, true => some (low + 1, exponent)
  | false, false => none

/-- Take zeros off the end of the digits. -/
def dropZeros : Nat → Nat × Int → Nat × Int
  | 0, d => d
  | fuel + 1, (digits, exponent) =>
    if digits % 10 = 0 then dropZeros fuel (digits / 10, exponent + 1) else (digits, exponent)

/-- Digits and exponent of the shortest decimal of `significand · 2 ^ exponent`; seventeen digits
always suffice. -/
def shortest (significand : Nat) (exponent : Int) : Nat × Int :=
  if significand = 0 then (0, 0)
  else
    let (num, den) := ratio significand exponent
    let leading := floorLog10 num den
    let grids := (List.range 17).map fun (n : Nat) => leading - (n : Int)
    match grids.findSome? (onGrid? (interval significand exponent) num den) with
    | some d => dropZeros 17 d
    | none => (0, 0)

/-! ## Writing -/

def decimalDigits (n : Nat) : List Char := Nat.toDigits 10 n

/-- Sign and at least two digits. -/
def exponentText (e : Int) : List Char :=
  let digits := decimalDigits e.natAbs
  'e' :: (if e < 0 then '-' else '+') :: (List.replicate (2 - digits.length) '0' ++ digits)

/-- The text of `digits · 10 ^ exponent`. -/
def decimalText (digits : Nat) (exponent : Int) : List Char :=
  let ds := decimalDigits digits
  let leading : Int := exponent + ds.length - 1
  if digits = 0 then ['0', '.', '0']
  else if leading < -4 || leading ≥ 16 then
    match ds with
    | [d] => d :: exponentText leading
    | d :: rest => d :: '.' :: rest ++ exponentText leading
    | [] => []
  else if leading < 0 then
    '0' :: '.' :: List.replicate (-leading - 1).toNat '0' ++ ds
  else if 0 ≤ exponent then ds ++ List.replicate exponent.toNat '0' ++ ['.', '0']
  else ds.take (leading + 1).toNat ++ '.' :: ds.drop (leading + 1).toNat

def text : Binary64 → List Char
  | .finite negative significand exponent =>
    let (digits, power) := shortest significand exponent
    (if negative then ['-'] else []) ++ decimalText digits power
  | .infinite negative => if negative then "-inf".toList else "inf".toList
  | .nan => "nan".toList

end ApiManual.Binary64
