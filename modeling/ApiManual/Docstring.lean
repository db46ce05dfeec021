import ApiManual.Text.Case
import ApiManual.Text.Lines
import ApiManual.Text.Word

/-!
# Docstrings

A docstring begins with a summary line; the prose up to the first tag gives the details. A line
`@name content` is a tag, and the lines under it continue its content up to the next tag or blank line.
Prose after the first tag is passed over.
-/

namespace ApiManual

open Text

structure Tag where
  name : String
  content : String := ""
  deriving DecidableEq, Repr, Inhabited

structure Docstring where
  summary : String := ""
  details : String := ""
  tags : List Tag := []
  deriving DecidableEq, Repr, Inhabited

/-! ## Reading -/

/-- The tag that a line without blanks around it is. -/
def Tag.ofLine? : List Char → Option Tag
  | '@' :: cs =>
    let name := cs.takeWhile isWordChar
    let rest := cs.dropWhile isWordChar
    if name.isEmpty || !(rest.isEmpty || rest.head?.any isBlank) then none
    else some { name := String.ofList name, content := String.ofList (trim rest) }
  | _ => none

/-- Add a line to the content. -/
def Tag.extend (tag : Tag) (line : List Char) : Tag :=
  { tag with content := String.ofList (trim (tag.content.toList ++ ' ' :: line)) }

/-- What has been read of a docstring; prose and tags have the last one first. -/
structure Draft where
  prose : List (List Char) := []
  tags : List Tag := []
  /-- Whether a line continues the last tag. -/
  tagOpen : Bool := false

/-- Read a line without blanks around it. -/
def Draft.add (d : Draft) (line : List Char) : Draft :=
  match Tag.ofLine? line with
  | some tag => { d with tags := tag :: d.tags, tagOpen := true }
  | none =>
    match d.tagOpen, d.tags with
    | true, tag :: tags =>
      if line.isEmpty then { d with tagOpen := false } else { d with tags := tag.extend line :: tags }
    | _, [] => { d with prose := line :: d.prose }
    | _, _ => d

def Draft.finish (d : Draft) : Docstring :=
  match d.prose.reverse.dropWhile (·.isEmpty) with
  | [] => { tags := d.tags.reverse }
  | summary :: details =>
    { summary := String.ofList summary
      details := String.ofList (trim (joinWith ['\n'] details))
      tags := d.tags.reverse }

namespace Docstring

def ofLines (ls : List (List Char)) : Docstring := (ls.foldl (fun (d : Draft) l => d.add (trim l)) {}).finish

def read (text : String) : Docstring := ofLines (lines (dedent text.toList))

/-- The docstring of a source that may have none. -/
def read? (text : Option String) : Docstring := (text.map read).getD {}

/-! ## Looking up tags -/

def tagsNamed (d : Docstring) (name : String) : List Tag := d.tags.filter (·.name == name)

def first? (d : Docstring) (name : String) : Option Tag := d.tags.find? (·.name == name)

/-- Whether there is a tag of this name in any letter case. -/
def hasTag (d : Docstring) (name : String) : Bool :=
  d.tags.any fun tag => lower tag.name.toList == lower name.toList

/-- Handlers with this tag are left out of the manual. -/
def isHidden (d : Docstring) : Bool := (d.first? "hideFromAPIDocumentation").isSome

end Docstring

/-- The group of a route: a `@group` of the handler, else of its owner, else the general one. -/
def routeGroup (handlerDoc ownerDoc : Option String) : String :=
  let groupOf (doc : Option String) : Option String :=
    match (Docstring.read? doc).first? "group" with
    | some tag => if tag.content = "" then none else some tag.content
    | none => none
  (groupOf handlerDoc <|> groupOf ownerDoc).getD "general"

end ApiManual
