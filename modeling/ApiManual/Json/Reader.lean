import ApiManual.Json.Token

/-!
# Reading JSON

`Json.read` reads a text that is one JSON value. It runs the tokens through a machine whose stack holds
the containers that are open; the first token that does not fit decides the error. Of two members
with one name the last gives the value and the first the place.

An integer has `Number.maxDigits` digits at most. `isOverlong` tells a text that breaks this rule, where the machine
comes to such an integer, from one that is not JSON.
-/

namespace ApiManual.Json

/-- An open container that waits for the value of its next item. -/
inductive Frame where
  | list (items : List Json)
  | members (fields : Entries Json) (label : String)

/-- What is due next, above the open containers. -/
inductive Stage where
  | value (stack : List Frame)
  | firstItem (stack : List Frame)
  | name (fields : Entries Json) (closable : Bool) (stack : List Frame)
  | colon (fields : Entries Json) (label : String) (stack : List Frame)
  | after (v : Json) (stack : List Frame)

/-- Whether a value is an integer of too many digits. -/
def isLong : Json → Bool
  | .int i => !Number.fits Number.maxDigits i.natAbs
  | _ => false

/-- A value begins at the token. -/
def Stage.begin (stack : List Frame) (p : Placed) : Except (Flaw × Nat) Stage :=
  match p.token with
  | .value v => if v.isLong then .error (.integerTooLong, p.position) else .ok (.after v stack)
  | .string s => .ok (.after (.str s) stack)
  | .beginArray => .ok (.firstItem stack)
  | .beginObject => .ok (.name [] true stack)
  | .malformed flaw position => .error (flaw, position)
  | _ => .error (.valueExpected, p.position)

/-- Move over one token. -/
def Stage.step : Stage → Placed → Except (Flaw × Nat) Stage
  | .value stack, p => begin stack p
  | .firstItem stack, p => match p.token with
    | .endArray => .ok (.after (.arr []) stack)
    | _ => begin (.list [] :: stack) p
  | .name fields closable stack, p => match p.token with
    | .string s => .ok (.colon fields s stack)
    | .malformed flaw position => .error (flaw, position)
    | .endObject =>
      if closable then .ok (.after (.obj fields) stack) else .error (.nameExpected, p.position)
    | _ => .error (.nameExpected, p.position)
  | .colon fields label stack, p => match p.token with
    | .colon => .ok (.value (.members fields label :: stack))
    | _ => .error (.colonExpected, p.position)
  | .after v (.list items :: stack), p => match p.token with
    | .comma => .ok (.value (.list (items ++ [v]) :: stack))
    | .endArray => .ok (.after (.arr (items ++ [v])) stack)
    | _ => .error (.commaExpected, p.position)
  | .after v (.members fields label :: stack), p => match p.token with
    | .comma => .ok (.name (fields.set label v) false stack)
    | .endObject => .ok (.after (.obj (fields.set label v)) stack)
    | _ => .error (.commaExpected, p.position)
  | .after v [], p => match p.token with
    | .finish => .ok (.after v [])
    | _ => .error (.extraData, p.position)

/-- The value of a sequence of tokens that ends with `finish` or where no token could be read. -/
def ofTokens (tokens : List Placed) : Except (Flaw × Nat) Json := do
  match ← tokens.foldlM Stage.step (.value []) with
  | .after v _ => .ok v
  | _ => .error (.valueExpected, 0)

/-! ## Errors -/

/-- A flaw and where it is: in characters from the start, and as line and column from one. -/
structure ReadError where
  flaw : Flaw
  position : Nat
  line : Nat
  column : Nat
  deriving DecidableEq, Repr

def Flaw.text : Flaw → String
  | .byteOrderMark => "Unexpected UTF-8 BOM (decode using utf-8-sig)"
  | .valueExpected => "Expecting value"
  | .nameExpected => "Expecting property name enclosed in double quotes"
  | .colonExpected => "Expecting ':' delimiter"
  | .commaExpected => "Expecting ',' delimiter"
  | .extraData => "Extra data"
  | .unterminatedString => "Unterminated string starting at"
  | .controlCharacter => "Invalid control character at"
  | .invalidEscape => "Invalid \\escape"
  | .invalidUnicodeEscape => "Invalid \\uXXXX escape"
  | .integerTooLong => "Exceeds the limit (4300 digits) for integer string conversion"

/-- The error of a flaw at a position of a text. -/
def ReadError.at (text : List Char) (flaw : Flaw) (position : Nat) : ReadError :=
  let before := text.take position
  { flaw, position, line := before.count '\n' + 1,
    column := (before.reverse.takeWhile (· != '\n')).length + 1 }

def ReadError.message (e : ReadError) : String :=
  s!"{e.flaw.text}: line {e.line} column {e.column} (char {e.position})"

def readChars (text : List Char) : Except ReadError Json :=
  if text.head? = some '\ufeff' then .error (.at text .byteOrderMark 0)
  else match ofTokens (Token.scan text) with
    | .ok v => .ok v
    | .error (flaw, position) => .error (.at text flaw position)

def read (text : String) : Except ReadError Json := readChars text.toList

/-- Whether a text is JSON. -/
def isJson (text : String) : Bool := (read text).isOk

/-- The flaw is an integer of too many digits. -/
def ReadError.isOverlong (e : ReadError) : Bool := e.flaw == .integerTooLong

/-- Whether the reading of a text comes to an integer of too many digits. -/
def isOverlong (text : String) : Bool :=
  match read text with
  | .ok _ => false
  | .error e => e.isOverlong

end ApiManual.Json
