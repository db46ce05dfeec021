import ApiManual.Text.Quoted
import ApiManual.Text.Search

/-!
# File trees

A `FileTree` holds the texts of files and the directories of a working directory. Every directory on the
way to a file or a directory exists. The directories above the working directory and the root exist too;
in them there is what was put there.

* `read`, `kind` and `kindAt` look at a path, `write` and `makeDirectories` give a new tree.
* `changes` lists what is new or different.
* A `FileError` is refused work with the path that it was refused for.
-/

namespace ApiManual

/-- The steps of a path. An absolute path begins with an empty step, or with a slash where a text begins
with just two of them. -/
abbrev Path := List String

namespace Path

/-- The step that leads to the root. -/
def rootStep (text : String) : Path :=
  match (text.toList.takeWhile (· = '/')).length with
  | 0 => []
  | 2 => ["/"]
  | _ => [""]

/-- The steps between the slashes of a text. -/
def namedSteps (text : String) : Path :=
  ((Text.splitOn '/' text.toList).map String.ofList).filter (· != "")

/-- The path that a text spells; empty steps and `.` lead nowhere. -/
def ofText (text : String) : Path := rootStep text ++ (namedSteps text).filter (· != ".")

/-- The path that a text spells to the letter: `.` asks for a directory, and so does a slash at the end. -/
def literal (text : String) : Path :=
  rootStep text ++ namedSteps text ++ if text.toList.getLast? = some '/' then ["."] else []

def text : Path → String
  | [] => "."
  | [""] => "/"
  | ["/"] => "//"
  | "/" :: steps => "//" ++ "/".intercalate steps
  | steps => "/".intercalate steps

/-- Whether names can be those of files: none has the character that ends a name in the file system. -/
def isNameable (p : Path) : Bool := p.all fun step => !step.toList.contains '\x00'

end Path

inductive FileError.Cause where
  | notFound
  | alreadyExists
  | notDirectory
  | isDirectory
  | nameTooLong
  deriving DecidableEq, Repr

structure FileError where
  cause : FileError.Cause
  path : Path
  deriving DecidableEq, Repr

namespace FileError

def Cause.number : Cause → Nat
  | notFound => 2
  | alreadyExists => 17
  | notDirectory => 20
  | isDirectory => 21
  | nameTooLong => 36

def Cause.text : Cause → String
  | notFound => "No such file or directory"
  | alreadyExists => "File exists"
  | notDirectory => "Not a directory"
  | isDirectory => "Is a directory"
  | nameTooLong => "File name too long"

def message (e : FileError) : String :=
  s!"[Errno {e.cause.number}] {e.cause.text}: {Text.quotedString (Path.text e.path)}"

end FileError

structure FileTree where
  files : List (Path × String) := []
  /-- Directories beside those that lead to a file. -/
  directories : List Path := []
  deriving DecidableEq, Repr, Inhabited

namespace FileTree

/-- What stands at a path. -/
inductive Kind where
  | file (text : String)
  | directory
  deriving DecidableEq, Repr

def file? (t : FileTree) (p : Path) : Option String := t.files.lookup p

/-- Whether a place is the working directory or above it. -/
def isAbove (p : Path) : Bool := p.all (· = "..")

def isDirectory (t : FileTree) (p : Path) : Bool :=
  isAbove p || p = [""] || t.directories.any (p.isPrefixOf ·) || t.files.any fun f => p.isPrefixOf f.1 && f.1 != p

/-- The place that a step leads to: the root, the directory itself, the one above, or what is in it. -/
def move (here : Path) (step : String) : Path :=
  if step = "" ∨ step = "/" then [""]
  else if step = "." then here
  else if step = ".." then
    if isAbove here then here ++ [".."] else if here = [""] then here else here.dropLast
  else here ++ [step]

/-- The most bytes that a name may have. -/
def maxNameSize : Nat := 255

/-- Follow steps below a directory; the last one may lead to nothing. -/
def follow (t : FileTree) (here : Path) : List String → Except FileError.Cause Path
  | [] => .ok here
  | step :: steps =>
    if t.isDirectory here then
      if maxNameSize < step.utf8ByteSize then .error .nameTooLong else follow t (move here step) steps
    else if (t.file? here).isSome then .error .notDirectory
    else .error .notFound

/-- What is found at a path. -/
def kind (t : FileTree) (p : Path) : Except FileError.Cause Kind := do
  let place ← t.follow [] p
  if t.isDirectory place then return .directory
  else match t.file? place with
    | some text => return .file text
    | none => throw .notFound

/-- What is found where a text leads to the letter; an empty text leads nowhere. -/
def kindAt (t : FileTree) (text : String) : Except FileError.Cause Kind :=
  if text = "" then .error .notFound else t.kind (Path.literal text)

def read (t : FileTree) (p : Path) : Except FileError String :=
  match t.kind p with
  | .ok (.file text) => .ok text
  | .ok .directory => .error ⟨.isDirectory, p⟩
  | .error cause => .error ⟨cause, p⟩

/-- Put a text at a place, for the text that is there. -/
def setFile (place : Path) (text : String) : List (Path × String) → List (Path × String)
  | [] => [(place, text)]
  | (p, old) :: files =>
    if p = place then (p, text) :: files else (p, old) :: setFile place text files

def write (t : FileTree) (p : Path) (text : String) : Except FileError FileTree :=
  match t.follow [] p with
  | .error cause => .error ⟨cause, p⟩
  | .ok place =>
    if t.isDirectory place then .error ⟨.isDirectory, p⟩
    else .ok { t with files := setFile place text t.files }

/-- Make one directory, in a directory that exists. -/
def makeDirectory (t : FileTree) (p : Path) : Except FileError FileTree :=
  match t.follow [] p with
  | .error cause => .error ⟨cause, p⟩
  | .ok place =>
    if t.isDirectory place || (t.file? place).isSome then .error ⟨.alreadyExists, p⟩
    else .ok { t with directories := place :: t.directories }

/-- `makeDirectory`, unless the directory is there. -/
def ensureDirectory (t : FileTree) (p : Path) : Except FileError FileTree :=
  match t.makeDirectory p with
  | .ok t => .ok t
  | .error e => match t.kind p with
    | .ok .directory => .ok t
    | _ => .error e

/-- Make a directory and all that lead to it, the `above` last ones of which may be missing. -/
def ensureFrom : Nat → FileTree → Path → Except FileError FileTree
  | 0, t, p => t.ensureDirectory p
  | above + 1, t, p =>
    match t.ensureDirectory p with
    | .error ⟨.notFound, _⟩ => do ensureDirectory (← ensureFrom above t p.dropLast) p
    | r => r

def makeDirectories (t : FileTree) (p : Path) : Except FileError FileTree := ensureFrom p.length t p

/-- The files that an earlier tree does not have like that. -/
def changes (earlier t : FileTree) : List (Path × String) :=
  t.files.filter fun (p, text) => earlier.file? p != some text

end FileTree

end ApiManual
