import ApiManual.Text.Printable

/-!
# Quoted text

`quoted` writes a text between quotes with everything that is not printable escaped: single quotes,
or double quotes for a text that has a single quote and no double quote.
-/

namespace ApiManual.Text

/-- The last `width` lower-case hexadecimal digits of a number. -/
def hexDigits : Nat → Nat → List Char
  | 0, _ => []
  | width + 1, n => hexDigits width (n / 16) ++ [Nat.digitChar (n % 16)]

/-- One character between the quotes `quote`. -/
def escapeIn (quote c : Char) : List Char :=
  if c = quote ∨ c = '\\' then ['\\', c]
  else if c = '\n' then ['\\', 'n']
  else if c = '\r' then ['\\', 'r']
  else if c = '\t' then ['\\', 't']
  else if isPrintable c then [c]
  else if c.toNat ≤ 0xff then '\\' :: 'x' :: hexDigits 2 c.toNat
  else if c.toNat ≤ 0xffff then '\\' :: 'u' :: hexDigits 4 c.toNat
  else '\\' :: 'U' :: hexDigits 8 c.toNat

/-- The quote that a text is written between. -/
def quoteFor (cs : List Char) : Char := if cs.contains '\'' && !cs.contains '"' then '"' else '\''

def quoted (cs : List Char) : List Char :=
  quoteFor cs :: cs.flatMap (escapeIn (quoteFor cs)) ++ [quoteFor cs]

/-- `quoted` on strings. -/
def quotedString (s : String) : String := String.ofList (quoted s.toList)

end ApiManual.Text
