import ApiManual.Resource.Comment

/-!
# The outline of a resource's source

`outline` reads the lines of a method into events: a field where a comment declares one, with the
comment lines that continue it, and a close for every line that holds nothing but a closing bracket.
A field opens a scope when the first line of code after its comment ends in an opening bracket.
-/

namespace ApiManual

open Text

inductive Event where
  | field (name : String) (field : Field) (line : Int) (opens : Bool)
  | close (line : Int)
  deriving Repr

/-! ## Kinds of lines -/

/-- The text of a line up to the blanks at its end, when it holds no line feed before them. -/
def lineText? (cs : List Char) : Option (List Char) :=
  let text := trim cs
  if text.contains '\n' then none else some text

def fieldMark : List Char := "@responseParam".toList

/-- The content of a comment that declares a field. -/
def fieldLine? (line : List Char) : Option (List Char) :=
  match trimLeft line with
  | [] => none
  | c :: cs =>
    let cs := trimLeft cs
    let rest := cs.drop fieldMark.length
    if (c = '#' ∨ c = '*') ∧ fieldMark.isPrefixOf cs ∧ rest.head?.any isBlank then lineText? rest
    else none

/-- The text of a comment that continues the one before it: not empty, and no tag. -/
def continuation? (line : List Char) : Option (List Char) :=
  match trimLeft line with
  | '#' :: cs => (lineText? cs).bind fun text =>
    if text.isEmpty || text.head? = some '@' then none else some text
  | _ => none

/-- A closing bracket alone, or with a comma after it. -/
def isCloser (line : List Char) : Bool :=
  match trim line with
  | c :: cs => (c == ']' || c == '\x7d') && (trim cs == [] || trim cs == [','])
  | [] => false

def isComment (line : List Char) : Bool := (trimLeft line).head? == some '#'

/-- Whether the first line of code ends in an opening bracket. -/
def opensScope (lines : List (List Char)) : Bool :=
  match lines.dropWhile fun line => line.all isBlank || isComment line with
  | [] => false
  | line :: _ => (trimRight line).getLast?.any fun c => c == '[' || c == '\x7b'

/-! ## Events -/

/-- The texts of the comment lines that continue a comment. -/
def continuations : List (List Char) → List (List Char)
  | [] => []
  | line :: lines => match continuation? line with
    | some text => text :: continuations lines
    | none => []

/-- A content with the texts that continue it. -/
def joined (content : List Char) (texts : List (List Char)) : List Char :=
  texts.foldl (fun cs text => cs ++ ' ' :: text) content

/-- The events of the lines from `number` on. -/
def eventsFrom (number : Nat) : List (List Char) → Except Defect (List Event)
  | [] => .ok []
  | line :: lines =>
    match fieldLine? line with
    | some content =>
      match Field.ofComment (String.ofList (joined content (continuations lines))) with
      | .error d => .error (.atLine number d)
      | .ok (name, field) => do
        let events ← eventsFrom (number + 1) lines
        .ok (.field name field number (opensScope lines) :: events)
    | none =>
      if isCloser line then do
        let events ← eventsFrom (number + 1) lines
        .ok (.close number :: events)
      else eventsFrom (number + 1) lines

/-- The events of the lines, or of the first `bound` of them. -/
def outline (lines : List String) (bound : Option Int := none) : Except Defect (List Event) :=
  let lines := match bound with
    | some bound => lines.take bound.toNat
    | none => lines
  eventsFrom 1 (lines.map (·.toList))

end ApiManual
