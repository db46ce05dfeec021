/-!
# Binary floating point

A `Binary64` is a double-precision number kept exactly, as `± significand · 2 ^ exponent`. There is one
spelling per number: `significand < 2 ^ 53`, `-1074 ≤ exponent`, and the significand fills its 53 bits
unless the exponent is the least one.

* `Binary64.ofRatio` rounds a ratio of naturals to the nearest number, a tie to the even significand.
* `Binary64.ofDecimal` reads `digits · 10 ^ exponent`.
* `Binary64.roundTo` rounds to decimal places, from the exact value.
-/

namespace ApiManual

inductive Binary64 where
  | finite (negative : Bool) (significand : Nat) (exponent : Int)
  | infinite (negative : Bool)
  | nan
  deriving DecidableEq, Repr, Inhabited

/-- The quotient rounded to the nearest natural, a tie to the even one. -/
def roundHalfEven (num den : Nat) : Nat :=
  let q := num / den
  let r := 2 * (num % den)
  if r > den || (r == den && q % 2 == 1) then q + 1 else q

/-- `num / den` divided by `base ^ exponent`, as a ratio. -/
def scaleRatio (base : Nat) (exponent : Int) (num den : Nat) : Nat × Nat :=
  if 0 ≤ exponent then (num, den * Nat.pow base exponent.toNat)
  else (num * Nat.pow base (-exponent).toNat, den)

/-- The exponent of the binade of a positive ratio. -/
def floorLog2 (num den : Nat) : Int :=
  let guess : Int := (num.log2 : Int) - den.log2
  let scaled := scaleRatio 2 guess num den
  if scaled.2 ≤ scaled.1 then guess else guess - 1

namespace Binary64

def zero (negative : Bool) : Binary64 := .finite negative 0 (-1074)

/-- `significand · 2 ^ exponent` where rounding may have carried to `2 ^ 53`. -/
def ofRounded (negative : Bool) (significand : Nat) (exponent : Int) : Binary64 :=
  let carried := significand == Nat.pow 2 53
  let significand := if carried then Nat.pow 2 52 else significand
  let exponent := if carried then exponent + 1 else exponent
  if exponent > 971 then .infinite negative else .finite negative significand exponent

/-- The number nearest to `± num / den`. -/
def ofRatio (negative : Bool) (num den : Nat) : Binary64 :=
  if num = 0 then zero negative
  else
    let exponent := max (floorLog2 num den - 52) (-1074)
    let scaled := scaleRatio 2 exponent num den
    ofRounded negative (roundHalfEven scaled.1 scaled.2) exponent

/-- The number nearest to `± digits · 10 ^ exponent`. Exponents far outside the range are decided
before any power is formed. -/
def ofDecimal (negative : Bool) (digits : Nat) (exponent : Int) : Binary64 :=
  if digits = 0 then zero negative
  else if exponent > 400 then .infinite negative
  else if exponent + (digits.log2 : Int) / 3 < -400 then zero negative
  else if 0 ≤ exponent then ofRatio negative (digits * Nat.pow 10 exponent.toNat) 1
  else ofRatio negative digits (Nat.pow 10 (-exponent).toNat)

def ofInt (i : Int) : Binary64 := ofRatio (i < 0) i.natAbs 1

/-- The magnitude `significand · 2 ^ exponent` as a ratio. -/
def ratio (significand : Nat) (exponent : Int) : Nat × Nat := scaleRatio 2 (-exponent) significand 1

/-- Round the exact value to decimal places, a tie to the even digit. -/
def roundTo (places : Nat) : Binary64 → Binary64
  | .finite negative significand exponent =>
    let value := ratio significand exponent
    ofRatio negative (roundHalfEven (value.1 * Nat.pow 10 places) value.2) (Nat.pow 10 places)
  | x => x

/-- The integer that a number is, if it is one. -/
def toInt? : Binary64 → Option Int
  | .finite negative significand exponent =>
    let value := ratio significand exponent
    if value.1 % value.2 = 0 then
      let magnitude : Int := (value.1 / value.2 : Nat)
      some (if negative then -magnitude else magnitude)
    else none
  | _ => none

def isFinite : Binary64 → Bool
  | .finite .. => true
  | _ => false

def negate : Binary64 → Binary64
  | .finite negative significand exponent => .finite (!negative) significand exponent
  | .infinite negative => .infinite (!negative)
  | .nan => .nan

/-- The sum of two finite numbers, rounded once. -/
def addFinite (n₁ : Bool) (s₁ : Nat) (e₁ : Int) (n₂ : Bool) (s₂ : Nat) (e₂ : Int) : Binary64 :=
  let least := min e₁ e₂
  let scaled (negative : Bool) (s : Nat) (e : Int) : Int :=
    let magnitude : Int := (s * Nat.pow 2 (e - least).toNat : Nat)
    if negative then -magnitude else magnitude
  let total := scaled n₁ s₁ e₁ + scaled n₂ s₂ e₂
  let value := ratio total.natAbs least
  ofRatio (total < 0 || (total == 0 && n₁ && n₂)) value.1 value.2

def add : Binary64 → Binary64 → Binary64
  | .finite n₁ s₁ e₁, .finite n₂ s₂ e₂ => addFinite n₁ s₁ e₁ n₂ s₂ e₂
  | .infinite n, .finite .. | .finite .., .infinite n => .infinite n
  | .infinite n₁, .infinite n₂ => if n₁ = n₂ then .infinite n₁ else .nan
  | .nan, _ | _, .nan => .nan

/-- The product with an integer, rounded once. -/
def scale (k : Nat) : Binary64 → Binary64
  | .finite negative significand exponent =>
    let value := ratio (k * significand) exponent
    ofRatio negative value.1 value.2
  | .infinite negative => if k = 0 then .nan else .infinite negative
  | .nan => .nan

end Binary64

end ApiManual
