import ApiManual.Json.Literal
import ApiManual.Text.Lines

/-!
# Laid out literals

`Json.layout` writes a list or an object as a literal that keeps to 80 columns where it can. A value
whose literal does not fit goes one item to a line; a text that does not fit is split into adjacent
literals, at line ends and between words.
-/

namespace ApiManual.Json

open Text

/-- Columns of a line. -/
def lineWidth : Int := 80

/-! ## Long texts -/

/-- A word with the blanks that follow it, and the rest of the text. -/
def wordParts : List Char → List (List Char)
  | [] => []
  | c :: cs => match wordParts cs with
    | [] => [[c]]
    | part :: parts =>
      if isBlank c && !(part.head?.any isBlank) then [c] :: part :: parts else (c :: part) :: parts

/-- Gather parts into pieces whose literals fit `width`; the last part of all has `lastWidth`. -/
def gather (width lastWidth : Int) (current : List Char) : List (List Char) → List (List Char)
  | [] => if current.isEmpty then [] else [quoted current]
  | part :: parts =>
    let candidate := current ++ part
    let room := if parts.isEmpty then lastWidth else width
    if (quoted candidate).length > room then
      if current.isEmpty then gather width lastWidth part parts
      else quoted current :: gather width lastWidth part parts
    else gather width lastWidth candidate parts

/-- The literals of the lines of a text in `width` columns, with `allowance` less for the last line. -/
def pieces (width allowance : Int) : List (List Char) → List (List Char)
  | [] => []
  | line :: rest =>
    let last := if rest.isEmpty then width - allowance else width
    let here :=
      if (quoted line).length ≤ last then [quoted line] else gather width last [] (wordParts line)
    here ++ pieces width allowance rest

def textLayout (indent : Nat) (allowance : Int) (s : List Char) : List Char :=
  joinWith ('\n' :: List.replicate indent ' ') (pieces (lineWidth - indent) allowance (linesWithEnds s))

/-! ## Values -/

/-- Whether a literal fits behind `indent` columns with `allowance` columns to follow it. -/
def fits (indent : Nat) (allowance : Int) (text : List Char) : Bool :=
  text.length ≤ lineWidth - indent - allowance

/-- Between two items that stand on lines of their own. -/
def separator (indent : Nat) : List Char := ',' :: '\n' :: List.replicate indent ' '

mutual

/-- A value that begins at column `indent` and is followed by `allowance` columns. -/
def arrange (indent : Nat) (allowance : Int) : Json → List Char
  | .null => literalChars .null
  | .bool b => literalChars (.bool b)
  | .int i => literalChars (.int i)
  | .float x => literalChars (.float x)
  | .str s =>
    if fits indent allowance (quoted s.toList) || s.isEmpty then quoted s.toList
    else textLayout indent allowance s.toList
  | .arr items =>
    if fits indent allowance (literalChars (.arr items)) then literalChars (.arr items)
    else '[' :: arrangeItems (indent + 1) (allowance + 1) items ++ [']']
  | .obj fields =>
    if fits indent allowance (literalChars (.obj fields)) then literalChars (.obj fields)
    else '\x7b' :: arrangeFields (indent + 1) (allowance + 1) fields ++ ['\x7d']

def arrangeItems (indent : Nat) (allowance : Int) : List Json → List Char
  | [] => []
  | [item] => arrange indent allowance item
  | item :: next :: items =>
    arrange indent 1 item ++ separator indent ++ arrangeItems indent allowance (next :: items)

def arrangeFields (indent : Nat) (allowance : Int) : List (String × Json) → List Char
  | [] => []
  | [(name, v)] =>
    let label := quoted name.toList
    label ++ ':' :: ' ' :: arrange (indent + label.length + 2) allowance v
  | (name, v) :: next :: fields =>
    let label := quoted name.toList
    label ++ ':' :: ' ' :: arrange (indent + label.length + 2) 1 v ++ separator indent ++
      arrangeFields indent allowance (next :: fields)

end

def layout (v : Json) : String := String.ofList (arrange 0 0 v)

end ApiManual.Json
