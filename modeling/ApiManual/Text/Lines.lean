import ApiManual.Text.Blank
import ApiManual.Text.Search

/-!
# Lines

* `lines` splits a text at every line break, `linesWithEnds` keeps the break with its line.
* `expandTabs` puts spaces for tabs, with a stop at every eighth column.
* `dedent` takes the common margin off a text whose first line stands on its own.
-/

namespace ApiManual.Text

/-- Characters that end a line; a carriage return takes a line feed with it. -/
def isLineBreak (c : Char) : Bool :=
  c == '\n' || c == '\r' || c == '\x0b' || c == '\x0c' || c == '\x1c' || c == '\x1d' || c == '\x1e' ||
    c == '\u0085' || c == '\u2028' || c == '\u2029'

/-- The lines without their breaks; a break at the end opens no further line. -/
def lines : List Char → List (List Char)
  | [] => []
  | '\r' :: '\n' :: cs => [] :: lines cs
  | c :: cs => if isLineBreak c then [] :: lines cs else consFirst c (lines cs)

/-- The lines, each with the break that ends it. -/
def linesWithEnds : List Char → List (List Char)
  | [] => []
  | '\r' :: '\n' :: cs => ['\r', '\n'] :: linesWithEnds cs
  | c :: cs => if isLineBreak c then [c] :: linesWithEnds cs else consFirst c (linesWithEnds cs)

/-- `expandTabs` from a column. -/
def expandTabsFrom : Nat → List Char → List Char
  | _, [] => []
  | column, c :: cs =>
    if c = '\t' then
      List.replicate (8 - column % 8) ' ' ++ expandTabsFrom (column + (8 - column % 8)) cs
    else c :: expandTabsFrom (if c = '\n' ∨ c = '\r' then 0 else column + 1) cs

def expandTabs (cs : List Char) : List Char := expandTabsFrom 0 cs

/-- The blanks a line starts with; none for a line of blanks only. -/
def indent? (line : List Char) : Option Nat :=
  if line.all isBlank then none else some (line.takeWhile isBlank).length

/-- The least indent of the lines that have one. -/
def margin? (block : List (List Char)) : Option Nat := (block.filterMap indent?).min?

/-- The first line loses its indent, the others the margin that they share, and empty lines at
both ends go. Only line feeds count as breaks here. -/
def dedent (cs : List Char) : List Char :=
  match splitOn '\n' (expandTabs cs) with
  | [] => []
  | first :: rest =>
    let cut := match margin? rest with
      | some margin => rest.map (·.drop margin)
      | none => rest
    let block := trimLeft first :: cut
    let block := ((block.reverse.dropWhile (·.isEmpty)).reverse).dropWhile (·.isEmpty)
    joinWith ['\n'] block

end ApiManual.Text
