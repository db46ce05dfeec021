import ApiManual.Json.Basic
import ApiManual.Number.Shortest
import ApiManual.Text.Quoted

/-!
# Writing JSON

* `Json.compact` writes a value on one line, with a blank behind every comma and colon.
* `Json.compactAscii` also escapes every character outside ASCII.
* `Json.indented` puts every item on a line of its own.

A float that is not finite is written as `NaN`, `Infinity` or `-Infinity`.
-/

namespace ApiManual.Json

open Text

/-! ## Strings and numbers -/

/-- Escapes that have a letter, and the quote and the backslash. -/
def shortEscape? (c : Char) : Option (List Char) :=
  if c = '"' then some ['\\', '"']
  else if c = '\\' then some ['\\', '\\']
  else if c = '\n' then some ['\\', 'n']
  else if c = '\r' then some ['\\', 'r']
  else if c = '\t' then some ['\\', 't']
  else if c = '\x08' then some ['\\', 'b']
  else if c = '\x0c' then some ['\\', 'f']
  else none

def unicodeEscaped (n : Nat) : List Char := '\\' :: 'u' :: hexDigits 4 n

/-- Escape what cannot stand in a string: the quote, the backslash and the control characters. -/
def escapePlain (c : Char) : List Char :=
  match shortEscape? c with
  | some cs => cs
  | none => if c.toNat < 0x20 then unicodeEscaped c.toNat else [c]

/-- Escape also what is outside printable ASCII, by one UTF-16 unit or two. -/
def escapeAscii (c : Char) : List Char :=
  match shortEscape? c with
  | some cs => cs
  | none =>
    let n := c.toNat
    if 0x20 ≤ n && n < 0x7f then [c]
    else if n < 0x10000 then unicodeEscaped n
    else
      unicodeEscaped (0xd800 + (n - 0x10000) / 0x400) ++ unicodeEscaped (0xdc00 + (n - 0x10000) % 0x400)

def stringText (escape : Char → List Char) (s : String) : List Char :=
  '"' :: s.toList.flatMap escape ++ ['"']

def floatText : Binary64 → List Char
  | .nan => "NaN".toList
  | .infinite negative => if negative then "-Infinity".toList else "Infinity".toList
  | x => x.text

def intText (i : Int) : List Char :=
  if i < 0 then '-' :: Binary64.decimalDigits i.natAbs else Binary64.decimalDigits i.natAbs

/-! ## One line -/

mutual

/-- A value on one line, with strings escaped by `escape`. -/
def inline (escape : Char → List Char) : Json → List Char
  | .null => "null".toList
  | .bool b => if b then "true".toList else "false".toList
  | .int i => intText i
  | .float x => floatText x
  | .str s => stringText escape s
  | .arr items => '[' :: inlineItems escape items ++ [']']
  | .obj fields => '\x7b' :: inlineFields escape fields ++ ['\x7d']

def inlineItems (escape : Char → List Char) : List Json → List Char
  | [] => []
  | [item] => inline escape item
  | item :: next :: items => inline escape item ++ ',' :: ' ' :: inlineItems escape (next :: items)

def inlineFields (escape : Char → List Char) : List (String × Json) → List Char
  | [] => []
  | [(name, v)] => stringText escape name ++ ':' :: ' ' :: inline escape v
  | (name, v) :: next :: fields =>
    stringText escape name ++ ':' :: ' ' :: inline escape v ++
      ',' :: ' ' :: inlineFields escape (next :: fields)

end

def compact (v : Json) : String := String.ofList (inline escapePlain v)

def compactAscii (v : Json) : String := String.ofList (inline escapeAscii v)

/-! ## One item to a line -/

/-- A line feed and the blanks of a depth. -/
def newline (width depth : Nat) : List Char := '\n' :: List.replicate (width * depth) ' '

mutual

/-- A value whose containers open at `depth`. -/
def block (width depth : Nat) : Json → List Char
  | .arr [] => ['[', ']']
  | .obj [] => ['\x7b', '\x7d']
  | .arr items => '[' :: blockItems width (depth + 1) items ++ newline width depth ++ [']']
  | .obj fields => '\x7b' :: blockFields width (depth + 1) fields ++ newline width depth ++ ['\x7d']
  | .null => "null".toList
  | .bool b => if b then "true".toList else "false".toList
  | .int i => intText i
  | .float x => floatText x
  | .str s => stringText escapePlain s

def blockItems (width depth : Nat) : List Json → List Char
  | [] => []
  | [item] => newline width depth ++ block width depth item
  | item :: next :: items =>
    newline width depth ++ block width depth item ++ ',' :: blockItems width depth (next :: items)

def blockFields (width depth : Nat) : List (String × Json) → List Char
  | [] => []
  | [(name, v)] => newline width depth ++ stringText escapePlain name ++ ':' :: ' ' :: block width depth v
  | (name, v) :: next :: fields =>
    newline width depth ++ stringText escapePlain name ++ ':' :: ' ' :: block width depth v ++
      ',' :: blockFields width depth (next :: fields)

end

def indented (width : Nat) (v : Json) : String := String.ofList (block width 0 v)

end ApiManual.Json
