import ApiManual.Moment
import ApiManual.Yaml.Token

/-!
# Kinds of nodes

A tag gives the kind of a node. The kind of a plain scalar without a tag shows in its form: `Kind.ofPlain`.
The tag `!` leaves the kind of every scalar to its form: `Kind.ofForm`.

* Booleans are also spelled `yes`, `no`, `on` and `off`.
* Integers may be binary, octal, hexadecimal or in parts of sixty; underscores may stand among digits.
* Floats have a point; an exponent has a sign.
* Timestamps are dates, with a time perhaps.
-/

namespace ApiManual.Yaml

inductive Kind where
  | null
  | bool
  | int
  | float
  | timestamp
  | str
  | binary
  /-- The key that merges other mappings into its own. -/
  | merge
  /-- The key of a default value. -/
  | defaultKey
  | list
  | map
  | set
  | orderedMap
  | pairs
  | unknown
  deriving DecidableEq, Repr, Inhabited

namespace Kind

def tagStart : String := "tag:yaml.org,2002:"

def names : List (String × Kind) := [
  ("null", null), ("bool", bool), ("int", int), ("float", float), ("timestamp", timestamp), ("str", str),
  ("binary", binary), ("merge", merge), ("value", defaultKey), ("seq", list), ("map", map), ("set", set),
  ("omap", orderedMap), ("pairs", pairs)]

def ofTag (tag : String) : Kind :=
  ((names.find? fun entry => tagStart ++ entry.1 == tag).map (·.2)).getD unknown

/-! ## The form of plain scalars -/

def boolWords : List String :=
  ["yes", "Yes", "YES", "no", "No", "NO", "true", "True", "TRUE", "false", "False", "FALSE", "on", "On", "ON",
    "off", "Off", "OFF"]

def nullWords : List String := ["", "~", "null", "Null", "NULL"]

def dropSign : List Char → List Char
  | '-' :: cs => cs
  | '+' :: cs => cs
  | cs => cs

def isNumeralChar (c : Char) : Bool := c.isDigit || c == '_'

/-- A decimal digit first, then digits and underscores. -/
def isNumeral (cs : List Char) : Bool := cs.head?.any Char.isDigit && cs.all isNumeralChar

/-- A number under sixty, of one digit or two. -/
def isSixtieth (cs : List Char) : Bool :=
  match cs with
  | [d] => d.isDigit
  | [d, e] => '0' ≤ d && d ≤ '5' && e.isDigit
  | _ => false

def nonemptyAll (p : Char → Bool) (cs : List Char) : Bool := !cs.isEmpty && cs.all p

def isInt (cs : List Char) : Bool :=
  match dropSign cs with
  | ['0'] => true
  | '0' :: 'b' :: digits => nonemptyAll (fun c => c == '0' || c == '1' || c == '_') digits
  | '0' :: 'x' :: digits => nonemptyAll (fun c => (hexValue? c).isSome || c == '_') digits
  | '0' :: digits => nonemptyAll (fun c => ('0' ≤ c && c ≤ '7') || c == '_') digits
  | digits => match Text.splitOn ':' digits with
    | first :: parts => isNumeral first && parts.all isSixtieth
    | [] => false

/-- Nothing, or `e`, a sign and digits. -/
def isExponent : List Char → Bool
  | [] => true
  | c :: s :: digits =>
    (c == 'e' || c == 'E') && (s == '-' || s == '+') && nonemptyAll Char.isDigit digits
  | _ => false

/-- What follows the point of a decimal. -/
def isFraction (cs : List Char) : Bool := isExponent (cs.dropWhile isNumeralChar)

def isFloat (cs : List Char) : Bool :=
  let body := dropSign cs
  let special := String.ofList body
  let (whole, fraction) := (body.takeWhile (· != '.'), body.dropWhile (· != '.'))
  special == ".inf" || special == ".Inf" || special == ".INF" ||
    (cs == body && (special == ".nan" || special == ".NaN" || special == ".NAN")) ||
    match fraction with
    | [] => false
    | _ :: fraction =>
      if whole.isEmpty then cs == body && fraction.head?.any Char.isDigit && isFraction fraction
      else match Text.splitOn ':' whole with
        | [whole] => isNumeral whole && isFraction fraction
        | first :: parts => isNumeral first && parts.all isSixtieth && fraction.all isNumeralChar
        | [] => false

end Kind

/-! ## Timestamps -/

namespace Timestamp

/-- At least `least` and at most `most` digits in front, and what follows all digits. -/
def number? (least most : Nat) (cs : List Char) : Option (Nat × List Char) :=
  let digits := cs.takeWhile Char.isDigit
  if least ≤ digits.length ∧ digits.length ≤ most then
    some (Number.digitsValue digits, cs.dropWhile Char.isDigit)
  else none

def expect? (c : Char) : List Char → Option (List Char)
  | d :: cs => if d = c then some cs else none
  | [] => none

/-- `Z`, or a sign, hours and perhaps minutes, to the end of the text: minutes ahead of universal time. -/
def zone? (cs : List Char) : Option (Option Int) :=
  match cs.dropWhile isGap with
  | [] => if cs.isEmpty then some none else none
  | ['Z'] => some (some 0)
  | c :: cs => do
    if c ≠ '-' ∧ c ≠ '+' then none
    let ahead (minutes : Nat) : Int := if c = '-' then -(minutes : Int) else minutes
    let (hours, cs) ← number? 1 2 cs
    match cs with
    | [] => return some (ahead (60 * hours))
    | ':' :: cs =>
      let (minutes, cs) ← number? 2 2 cs
      if cs.isEmpty then return some (ahead (60 * hours + minutes)) else none
    | _ => none

/-- The microseconds that digits behind a point stand for; further digits are cut off. -/
def microseconds (digits : List Char) : Nat :=
  Number.digitsValue ((digits ++ List.replicate 6 '0').take 6)

/-- The time and the zone behind a date. -/
def timeOfDay? (cs : List Char) : Option TimeOfDay := do
  let (hour, cs) ← number? 1 2 cs
  let (minute, cs) ← number? 2 2 (← expect? ':' cs)
  let (second, cs) ← number? 2 2 (← expect? ':' cs)
  let (fraction, cs) := match cs with
    | '.' :: cs => (cs.takeWhile Char.isDigit, cs.dropWhile Char.isDigit)
    | cs => ([], cs)
  return { hour, minute, second, microsecond := microseconds fraction, offset := ← zone? cs }

/-- The moment that a timestamp spells. Months and days may have one digit. -/
def moment? (cs : List Char) : Option Moment := do
  let (year, cs) ← number? 4 4 cs
  let (month, cs) ← number? 1 2 (← expect? '-' cs)
  let (day, cs) ← number? 1 2 (← expect? '-' cs)
  match cs with
  | [] => return { year, month, day }
  | c :: rest =>
    if c = 'T' ∨ c = 't' ∨ isGap c then
      let rest := if isGap c then rest.dropWhile isGap else rest
      return { year, month, day, time := some (← timeOfDay? rest) }
    else none

/-- Whether a plain scalar is a timestamp: a date alone has two digits for month and day. -/
def isPlain (cs : List Char) : Bool :=
  match moment? cs with
  | some m => m.time.isSome || cs.length = 10
  | none => false

end Timestamp

/-! ## The kind of a scalar -/

/-- Indicators that a plain scalar cannot be; their kind has no values. -/
def Kind.indicators : List String := ["!", "&", "*"]

/-- The kind of a plain scalar. -/
def Kind.ofPlain (cs : List Char) : Kind :=
  let text := String.ofList cs
  if boolWords.contains text then .bool
  else if nullWords.contains text then .null
  else if isInt cs then .int
  else if isFloat cs then .float
  else if text = "<<" then .merge
  else if text = "=" then .defaultKey
  else if indicators.contains text then .unknown
  else if Timestamp.isPlain cs then .timestamp
  else .str

/-- A text without a line feed at its end, if it has other characters. -/
def dropFinalFeed (cs : List Char) : List Char :=
  if 1 < cs.length ∧ cs.getLast? = some '\n' then cs.dropLast else cs

/-- The kind of any scalar that is to be read as if it were plain: a line feed at its end does not count. -/
def Kind.ofForm (cs : List Char) : Kind := ofPlain (dropFinalFeed cs)

end ApiManual.Yaml
