import ApiManual.Text.Search
import ApiManual.Text.Similar

/-!
# The docstring in the source of a function

A docstring is the text literal that a function's body begins with, if it is a statement of its own.

* `withoutMargin` takes off the margin that all lines share.
* `behindHead?` leads behind the colon that ends the head of a function.
* `Quotes.span?` parts the inside of a literal from what follows, and `unescape` reads its escapes.
-/

namespace ApiManual.Source

def isIndent (c : Char) : Bool := c = ' ' || c = '\t'

/-! ## Margins -/

/-- What two margins begin with alike. -/
def sharedMargin (s t : List Char) : List Char := s.take (Text.commonStart s t)

/-- Take off the blanks that all lines with text begin with; lines without text become empty. -/
def withoutMargin (lines : List (List Char)) : List (List Char) :=
  let lines := lines.map fun line => if line.all isIndent then [] else line
  match (lines.filter (!·.isEmpty)).map (·.takeWhile isIndent) with
  | [] => lines
  | margin :: margins => lines.map (·.drop (margins.foldl sharedMargin margin).length)

/-! ## The head of a function -/

/-- What the head of a function is made of. -/
inductive HeadPart where
  | code
  | comment
  | literal (quote : Char)

/-- What stands behind the first colon outside brackets, literals and comments. -/
def behindHead? (part : HeadPart) (depth : Nat) : List Char → Option (List Char)
  | [] => none
  | c :: cs =>
    match part with
    | .comment => behindHead? (if c = '\n' then .code else .comment) depth cs
    | .literal quote =>
      if c = '\\' then
        match cs with
        | [] => none
        | _ :: cs => behindHead? part depth cs
      else behindHead? (if c = quote then .code else part) depth cs
    | .code =>
      if c = ':' ∧ depth = 0 then some cs
      else if c = '#' then behindHead? .comment depth cs
      else if c = '"' ∨ c = '\'' then behindHead? (.literal c) depth cs
      else if ['(', '[', '\x7b'].contains c then behindHead? .code (depth + 1) cs
      else if [')', ']', '\x7d'].contains c then behindHead? .code (depth - 1) cs
      else behindHead? .code depth cs

/-- A line that begins a function, not a decorator above it. -/
def beginsFunction (line : List Char) : Bool :=
  ["def ", "async "].any fun word => word.toList.isPrefixOf (line.dropWhile isIndent)

/-- Skip blanks and joined lines, and with `across` also ends of lines and comments. -/
def skipGap (across inComment : Bool) : List Char → List Char
  | [] => []
  | c :: cs =>
    if inComment then skipGap across (c != '\n') cs
    else if isIndent c || c = '\x0c' || (across && c = '\n') then skipGap across false cs
    else if across && c = '#' then skipGap across true cs
    else match c, cs with
      | '\\', '\n' :: cs => skipGap across false cs
      | c, cs => c :: cs

/-! ## Text literals -/

structure Quotes where
  mark : Char
  /-- Whether the mark stands three times, so that lines may end inside. -/
  triple : Bool

namespace Quotes

def read? : List Char → Option (Quotes × List Char)
  | c :: cs =>
    if c != '"' && c != '\'' then none
    else if [c, c].isPrefixOf cs then some (⟨c, true⟩, cs.drop 2)
    else some (⟨c, false⟩, cs)
  | [] => none

/-- The inside of a literal as it is written, and what follows the closing quotes. -/
def span? (q : Quotes) : List Char → Option (List Char × List Char)
  | [] => none
  | '\\' :: c :: cs => (q.span? cs).map fun (inside, rest) => ('\\' :: c :: inside, rest)
  | c :: cs =>
    if c = q.mark ∧ !q.triple then some ([], cs)
    else if c = q.mark ∧ [c, c].isPrefixOf cs then some ([], cs.drop 2)
    else (q.span? cs).map fun (inside, rest) => (c :: inside, rest)

end Quotes

/-- The value of a digit below a base. -/
def digitBelow? (base : Nat) (c : Char) : Option Nat :=
  let value :=
    if '0' ≤ c ∧ c ≤ '9' then some (c.toNat - '0'.toNat)
    else if 'a' ≤ c ∧ c ≤ 'f' then some (c.toNat - 'a'.toNat + 10)
    else if 'A' ≤ c ∧ c ≤ 'F' then some (c.toNat - 'A'.toNat + 10)
    else none
  value.filter (· < base)

/-- The character that a letter stands for behind a backslash. -/
def escapedChar? : Char → Option Char
  | '\\' => some '\\'
  | '\'' => some '\''
  | '"' => some '"'
  | 'a' => some '\x07'
  | 'b' => some '\x08'
  | 'f' => some '\x0c'
  | 'n' => some '\n'
  | 'r' => some '\r'
  | 't' => some '\t'
  | 'v' => some '\x0b'
  | _ => none

/-- How far an escape is read. -/
inductive EscapeState where
  | outside
  | begun
  /-- In its digits: so many more may follow, and the ones read have this value. -/
  | digits (base more value : Nat)

/-- The digits that a letter behind a backslash asks for. -/
def EscapeState.ofLetter? (c : Char) : Option EscapeState :=
  match c with
  | 'x' => some (.digits 16 2 0)
  | 'u' => some (.digits 16 4 0)
  | 'U' => some (.digits 16 8 0)
  | c => (digitBelow? 8 c).map (.digits 8 2)

/-- The text that the inside of a literal stands for. An unknown escape stands for itself. -/
def unescape (state : EscapeState) : List Char → List Char
  | [] => match state with
    | .outside => []
    | .begun => ['\\']
    | .digits _ _ value => [Char.ofNat value]
  | c :: cs =>
    let plain := if c = '\\' then unescape .begun cs else c :: unescape .outside cs
    match state with
    | .outside => plain
    | .begun =>
      if c = '\n' then unescape .outside cs
      else match escapedChar? c, EscapeState.ofLetter? c with
        | some d, _ => d :: unescape .outside cs
        | none, some state => unescape state cs
        | none, none => '\\' :: c :: unescape .outside cs
    | .digits base more value => match more, digitBelow? base c with
      | more + 1, some d => unescape (.digits base more (base * value + d)) cs
      | _, _ => Char.ofNat value :: plain

/-- Read one text literal; a leading `r` keeps its backslashes. -/
def readLiteral? (cs : List Char) : Option (List Char × List Char) := do
  let isRaw := cs.head?.any ['r', 'R'].contains
  let (q, cs) ← Quotes.read? (if cs.head?.any ['r', 'R', 'u', 'U'].contains then cs.tail else cs)
  let (inside, rest) ← q.span? cs
  return (if isRaw then inside else unescape .outside inside, rest)

/-! ## Docstrings -/

/-- The text of a statement made of literals side by side, perhaps in brackets; `found` is what was read of
it. -/
def statementText? : Nat → Nat → Option (List Char) → List Char → Option (List Char)
  | 0, _, _, _ => none
  | fuel + 1, depth, found, cs =>
    match skipGap (depth != 0) false cs with
    | '(' :: cs => if found.isNone then statementText? fuel (depth + 1) none cs else none
    | ')' :: cs => if depth != 0 && found.isSome then statementText? fuel (depth - 1) found cs else none
    | cs => match readLiteral? cs with
      | some (text, cs) => statementText? fuel depth (some (found.getD [] ++ text)) cs
      | none =>
        if depth = 0 ∧ cs.head?.all ['\n', '#', ';'].contains then found else none

/-- The docstring of a function with this source. -/
def functionDoc? (lines : List String) : Option String := do
  let source := Text.joinWith ['\n'] ((withoutMargin (lines.map String.toList)).dropWhile (!beginsFunction ·))
  let body := skipGap true false (← behindHead? .code 0 source)
  let text ← statementText? (body.length + 1) 0 none body
  return String.ofList text

end ApiManual.Source
