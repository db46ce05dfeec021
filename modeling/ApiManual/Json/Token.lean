import ApiManual.Json.Basic
import ApiManual.Number.Numeral

/-!
# JSON tokens

`Token.scan` splits a text into tokens with their positions. The last one is `finish` at the end of
the text, or `invalid` or `malformed` where no token can be read.
-/

namespace ApiManual.Json

/-- What can be wrong with a JSON text. -/
inductive Flaw where
  | byteOrderMark
  | valueExpected
  | nameExpected
  | colonExpected
  | commaExpected
  | extraData
  | unterminatedString
  | controlCharacter
  | invalidEscape
  | invalidUnicodeEscape
  /-- An integer with more digits than are read. It is none of the format's mistakes. -/
  | integerTooLong
  deriving DecidableEq, Repr

inductive Token where
  | beginArray
  | endArray
  | beginObject
  | endObject
  | comma
  | colon
  | value (v : Json)
  | string (s : String)
  | invalid
  | malformed (flaw : Flaw) (position : Nat)
  | finish
  deriving Repr, Inhabited

/-- A token and where it begins, in characters from the start. -/
structure Placed where
  position : Nat
  token : Token
  deriving Repr, Inhabited

namespace Token

/-- White space between tokens. -/
def isSpace (c : Char) : Bool := c == ' ' || c == '\t' || c == '\n' || c == '\r'

/-! ## Strings -/

def hexValue? (c : Char) : Option Nat :=
  if '0' ≤ c && c ≤ '9' then some (c.toNat - 48)
  else if 'a' ≤ c && c ≤ 'f' then some (c.toNat - 87)
  else if 'A' ≤ c && c ≤ 'F' then some (c.toNat - 55)
  else none

/-- The value of four hexadecimal digits. -/
def hexQuad? : List Char → Option Nat
  | [a, b, c, d] => do
    let a ← hexValue? a
    let b ← hexValue? b
    let c ← hexValue? c
    let d ← hexValue? d
    some (((a * 16 + b) * 16 + c) * 16 + d)
  | _ => none

def isHighSurrogate (n : Nat) : Bool := 0xd800 ≤ n && n ≤ 0xdbff

def isLowSurrogate (n : Nat) : Bool := 0xdc00 ≤ n && n ≤ 0xdfff

/-- A code point. A text cannot hold a surrogate on its own, and the replacement character stands for it. -/
def charOf (n : Nat) : Char := if 0xd800 ≤ n && n ≤ 0xdfff then '\ufffd' else Char.ofNat n

/-- The character of a `u` escape and how many characters follow the `u`: four digits, or ten for a
pair of surrogates. A further character must stand behind the digits. `position` is that of the `u`. -/
def unicodeEscape (position : Nat) (cs : List Char) : Except (Flaw × Nat) (Char × Nat) :=
  if cs.length < 5 then .error (.invalidUnicodeEscape, position)
  else match hexQuad? (cs.take 4) with
    | none => .error (.invalidUnicodeEscape, position)
    | some n =>
      let rest := cs.drop 4
      if isHighSurrogate n && 6 < rest.length && rest.take 2 == ['\\', 'u'] then
        match hexQuad? ((rest.drop 2).take 4) with
        | none => .error (.invalidUnicodeEscape, position + 6)
        | some m =>
          if isLowSurrogate m then
            .ok (Char.ofNat (0x10000 + (n - 0xd800) * 0x400 + (m - 0xdc00)), 10)
          else .ok (charOf n, 4)
      else .ok (charOf n, 4)

/-- The character of an escape and how many characters follow the backslash, which stands at
`position`; `start` is that of the opening quote. -/
def escape (start position : Nat) : List Char → Except (Flaw × Nat) (Char × Nat)
  | [] => .error (.unterminatedString, start)
  | 'u' :: cs => (unicodeEscape (position + 1) cs).map fun (c, n) => (c, n + 1)
  | '"' :: _ => .ok ('"', 1)
  | '\\' :: _ => .ok ('\\', 1)
  | '/' :: _ => .ok ('/', 1)
  | 'b' :: _ => .ok ('\x08', 1)
  | 'f' :: _ => .ok ('\x0c', 1)
  | 'n' :: _ => .ok ('\n', 1)
  | 'r' :: _ => .ok ('\r', 1)
  | 't' :: _ => .ok ('\t', 1)
  | _ => .error (.invalidEscape, position)

/-- The characters of a string from `position` on, after passing over `skip` characters of an escape,
and how many characters of the text they take with the closing quote. -/
def stringBody (start : Nat) : Nat → Nat → List Char → Except (Flaw × Nat) (List Char × Nat)
  | _, _, [] => .error (.unterminatedString, start)
  | skip + 1, position, _ :: cs =>
    (stringBody start skip (position + 1) cs).map fun (s, n) => (s, n + 1)
  | 0, position, c :: cs =>
    if c = '"' then .ok ([], 1)
    else if c = '\\' then
      match escape start position cs with
      | .error e => .error e
      | .ok (e, skip) =>
        (stringBody start skip (position + 1) cs).map fun (s, n) => (e :: s, n + 1)
    else if c.toNat ≤ 0x1f then .error (.controlCharacter, position)
    else (stringBody start 0 (position + 1) cs).map fun (s, n) => (c :: s, n + 1)

/-! ## Numbers -/

/-- A point and digits, if both are there. -/
def takeFraction : List Char → List Char × List Char
  | '.' :: cs =>
    let digits := cs.takeWhile Char.isDigit
    if digits.isEmpty then ([], '.' :: cs) else (digits, cs.dropWhile Char.isDigit)
  | cs => ([], cs)

/-- An `e`, an optional sign and digits, if all are there. -/
def takeExponent? : List Char → Option Int × List Char
  | [] => (none, [])
  | c :: cs =>
    let (negative, rest) := Number.takeSign cs
    let digits := rest.takeWhile Char.isDigit
    if (c = 'e' ∨ c = 'E') ∧ digits ≠ [] then
      (some (Number.negateIf negative (Number.digitsValue digits)), rest.dropWhile Char.isDigit)
    else (none, c :: cs)

/-- The number at the front of a text and what follows it: an integer without fraction and exponent. Here it may
have any number of digits. -/
def takeNumber? (cs : List Char) : Option (Json × List Char) :=
  let (negative, body) := match cs with
    | '-' :: rest => (true, rest)
    | rest => (false, rest)
  let whole := match body with
    | '0' :: _ => ['0']
    | body => body.takeWhile Char.isDigit
  if whole.isEmpty then none
  else
    let (fraction, rest) := takeFraction (body.drop whole.length)
    let (exponent, rest) := takeExponent? rest
    if fraction.isEmpty && exponent.isNone then
      some (.int (Number.negateIf negative (Number.digitsValue whole)), rest)
    else
      some (.float (.ofDecimal negative (Number.digitsValue (whole ++ fraction))
        (exponent.getD 0 - fraction.length)), rest)

/-! ## The scanner -/

/-- Words that stand for values. -/
def words : List (List Char × Json) := [
  ("null".toList, .null), ("true".toList, .bool true), ("false".toList, .bool false),
  ("NaN".toList, .float .nan), ("Infinity".toList, .float (.infinite false)),
  ("-Infinity".toList, .float (.infinite true))]

/-- A value that is no string, list or object, and how many characters it takes. -/
def scalar? (cs : List Char) : Option (Json × Nat) :=
  match words.find? fun w => w.1.isPrefixOf cs with
  | some w => some (w.2, w.1.length)
  | none => (takeNumber? cs).map fun (v, rest) => (v, cs.length - rest.length)

/-- The token that begins with `c` at `position`, and how many characters it takes after `c`. -/
def read (position : Nat) (c : Char) (cs : List Char) : Token × Nat :=
  match c with
  | '[' => (.beginArray, 0)
  | ']' => (.endArray, 0)
  | '\x7b' => (.beginObject, 0)
  | '\x7d' => (.endObject, 0)
  | ',' => (.comma, 0)
  | ':' => (.colon, 0)
  | '"' => match stringBody position 0 (position + 1) cs with
    | .ok (s, n) => (.string (String.ofList s), n)
    | .error (flaw, p) => (.malformed flaw p, 0)
  | c => match scalar? (c :: cs) with
    | some (v, n) => (.value v, n - 1)
    | none => (.invalid, 0)

/-- No token follows one of these. -/
def isLast : Token → Bool
  | .invalid | .malformed .. => true
  | _ => false

/-- The tokens from `position` on, after passing over `skip` characters of a token already read. -/
def scanFrom : Nat → Nat → List Char → List Placed
  | _, position, [] => [⟨position, .finish⟩]
  | skip + 1, position, _ :: cs => scanFrom skip (position + 1) cs
  | 0, position, c :: cs =>
    if isSpace c then scanFrom 0 (position + 1) cs
    else
      let (token, n) := read position c cs
      if token.isLast then [⟨position, token⟩] else ⟨position, token⟩ :: scanFrom n (position + 1) cs

def scan (cs : List Char) : List Placed := scanFrom 0 0 cs

end Token

end ApiManual.Json
