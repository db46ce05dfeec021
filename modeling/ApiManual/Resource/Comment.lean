import ApiManual.Param.Tag
import ApiManual.Resource.Field

/-!
# Field comments

The content of a field's comment is a parameter tag whose description may hold an example
(`Example: <value>`, to the end of the line) and a list of choices (`Enum: [a, b]`). `Field.ofComment`
cuts both fragments out of the description.
-/

namespace ApiManual

open Text

/-- Characters that frame a description. -/
def isFraming (c : Char) : Bool := c == ' ' || c == '#' || c == '*'

/-- A fragment of a description: its whole text and the part that matters. -/
structure Fragment where
  whole : List Char
  inner : List Char
  deriving DecidableEq, Repr

def onLine (c : Char) : Bool := c != '\n'

/-- The first example, up to the end of its line. -/
def exampleFragment? (description : List Char) : Option Fragment :=
  (splitAtFirst? exampleMark description).map fun (_, after) =>
    let blanks := after.takeWhile isBlank
    let value := (after.dropWhile isBlank).takeWhile onLine
    { whole := exampleMark ++ blanks ++ value, inner := value }

def choicesMark : List Char := "Enum:".toList

/-- The text of a line up to its last closing bracket. -/
def beforeLastBracket? (cs : List Char) : Option (List Char) :=
  match (cs.takeWhile onLine).reverse.dropWhile (· != ']') with
  | [] => none
  | _ :: before => some before.reverse

/-- Choices at the front of the text. -/
def choicesHere? (cs : List Char) : Option Fragment :=
  if choicesMark.isPrefixOf cs then
    let after := cs.drop choicesMark.length
    let blanks := after.takeWhile isBlank
    match after.dropWhile isBlank with
    | '[' :: rest => (beforeLastBracket? rest).map fun inner =>
      { whole := choicesMark ++ blanks ++ '[' :: inner ++ [']'], inner }
    | _ => none
  else none

/-- The first choices. -/
def choicesFragment? : List Char → Option Fragment
  | [] => none
  | c :: cs => choicesHere? (c :: cs) <|> choicesFragment? cs

/-- The description without every occurrence of the fragment. -/
def dropFragment (fragment : Fragment) (description : List Char) : List Char :=
  trim (replaceAll fragment.whole [] description)

/-- The name and the field that a comment declares. -/
def Field.ofComment (content : String) : Except Defect (String × Field) := do
  let parts ← TagParts.ofContent content
  let type := ValueType.normalize parts.type
  let description := trimBy isFraming parts.description.toList
  let (exampleValue, description) ← match exampleFragment? description with
    | none => pure (none, description)
    | some fragment => do
      let value ← type.cast (String.ofList (trim fragment.inner))
      pure (some value, dropFragment fragment description)
  let (choices, description) := match choicesFragment? description with
    | none => (none, description)
    | some fragment =>
      (some ((splitOn ',' fragment.inner).map fun c => String.ofList (trim c)),
        dropFragment fragment description)
  return (parts.name,
    { type, description := String.ofList description, required := parts.required, exampleValue, choices })

end ApiManual
