import ApiManual.Json.Literal

/-!
# Query strings

`formEncode` writes values as a query string: a list gives one pair for each element, an object one
for each of its names, and every other value one pair. Blanks become plus signs.
-/

namespace ApiManual

/-- Characters that stand for themselves. -/
def isUnreserved (c : Char) : Bool := c.isAlphanum || c == '_' || c == '.' || c == '-' || c == '~'

def percentByte (b : UInt8) : List Char :=
  ['%', (Nat.digitChar (b.toNat / 16)).toUpper, (Nat.digitChar (b.toNat % 16)).toUpper]

/-- One character; outside the unreserved ones, by its UTF-8 bytes. -/
def formEncodeChar (c : Char) : List Char :=
  if isUnreserved c then [c]
  else if c = ' ' then ['+']
  else (String.utf8EncodeChar c).flatMap percentByte

def formEncodeText (s : String) : List Char := s.toList.flatMap formEncodeChar

/-- The texts that a value gives under its name. -/
def queryTexts : Json → List String
  | .arr items => items.map Json.plain
  | .obj fields => fields.map (·.1)
  | v => [v.plain]

/-- The pairs of name and text. -/
def queryPairs (values : Entries Json) : List (String × String) :=
  values.flatMap fun (name, v) => (queryTexts v).map fun text => (name, text)

def formEncode (values : Entries Json) : String :=
  String.ofList (['&'].intercalate ((queryPairs values).map fun (name, text) =>
    formEncodeText name ++ '=' :: formEncodeText text))

end ApiManual
