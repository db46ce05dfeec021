import ApiManual.Text.Quoted
import ApiManual.Text.Similar

/-!
# The words of a command line

`CommandForm.read` parts the words behind a command into options and arguments. An option may stand
anywhere up to `--`, or only before the first argument; its value is the next word, or follows an equals
sign in the same word, or, for an option of one letter, the letter. Options of one letter may share a word.
-/

namespace ApiManual.CommandLine

structure OptionForm where
  /-- The names of the option, from short to long. -/
  names : List String
  takesValue : Bool
  deriving DecidableEq, Repr, Inhabited

structure CommandForm where
  name : String
  /-- How its only argument is called. -/
  argument : String
  options : List OptionForm
  /-- Whether options may stand behind an argument. -/
  mixed : Bool := true
  deriving DecidableEq, Repr, Inhabited

/-- A command line that cannot be used. -/
inductive UsageError where
  | commandMissing
  /-- An unknown command, with the known ones that look like it. -/
  | unknownCommand (name : String) (similar : List String)
  /-- An unknown option, with the known ones that look like it. -/
  | unknownOption (name : String) (similar : List String)
  | valueMissing (option : String)
  | valueUnwanted (option : String)
  | argumentMissing (name : String)
  | argumentsExtra (words : List String)
  | badValue (parameter message : String)
  /-- A path that no file can have. -/
  | pathNotNameable
  deriving DecidableEq, Repr

open Text in
/-- What to write for names that look like an unknown one. -/
def suggestion : List String → String
  | [] => ""
  | [similar] => s!" Did you mean {quotedString similar}?"
  | similar =>
    let names := ", ".intercalate ((similar.mergeSort (· ≤ ·)).map quotedString)
    s!" (Did you mean one of: {names}?)"

namespace UsageError

open Text in
def message : UsageError → String
  | commandMissing => "Missing command."
  | unknownCommand name similar => s!"No such command {quotedString name}." ++ suggestion similar
  | unknownOption name similar => s!"No such option {quotedString name}." ++ suggestion similar
  | valueMissing option => s!"Option {quotedString option} requires an argument."
  | valueUnwanted option => s!"Option {quotedString option} does not take a value."
  | argumentMissing name => s!"Missing argument '{name}'."
  | argumentsExtra words =>
    let noun := if words.length = 1 then "argument" else "arguments"
    "Got unexpected extra " ++ noun ++ " (" ++ " ".intercalate words ++ ")"
  | badValue parameter message => s!"Invalid value for {parameter}: {message}"
  | pathNotNameable => ""

/-- Whether the usage of the command is shown above the message. -/
def showsUsage : UsageError → Bool
  | valueMissing _ | valueUnwanted _ => false
  | _ => true

end UsageError

/-- What words give: options in order, with the values of those that take one, and arguments. -/
structure Given where
  options : List (OptionForm × String) := []
  arguments : List String := []
  deriving DecidableEq, Repr, Inhabited

namespace Given

def option (g : Given) (o : OptionForm) (value : String) : Given :=
  { g with options := (o, value) :: g.options }

/-- The last value of an option. -/
def value? (g : Given) (o : OptionForm) : Option String :=
  (g.options.reverse.find? (·.1 == o)).map (·.2)

def has (g : Given) (o : OptionForm) : Bool := g.options.any (·.1 == o)

end Given

/-- The option that every command has. -/
def helpOption : OptionForm := { names := ["--help"], takesValue := false }

/-- What one word of options comes to: options that are complete, and one that waits for its value. -/
structure Cluster where
  complete : List (OptionForm × String) := []
  waiting : Option (OptionForm × String) := none

namespace CommandForm

def find? (form : CommandForm) (name : String) : Option OptionForm :=
  (form.options ++ [helpOption]).find? (·.names.contains name)

/-- The names of more than one letter. -/
def longNames (form : CommandForm) : List String :=
  (form.options ++ [helpOption]).flatMap fun o => o.names.filter fun name => name.toList.take 2 = ['-', '-']

/-- A word that spells an option's long name, perhaps with a value. -/
def longOption (form : CommandForm) (word : List Char) : Except UsageError Cluster :=
  let name := String.ofList (word.takeWhile (· != '='))
  let value := word.dropWhile (· != '=')
  match form.find? name with
  | none => .error (.unknownOption name (Text.mostSimilar name form.longNames))
  | some o => match o.takesValue, value with
    | true, [] => .ok { waiting := some (o, name) }
    | true, _ :: value => .ok { complete := [(o, String.ofList value)] }
    | false, [] => .ok { complete := [(o, "")] }
    | false, _ => .error (.valueUnwanted name)

/-- Letters as options of one letter each, the last of which may take the other letters as its value. -/
def letterOptions (form : CommandForm) : List Char → Except UsageError Cluster
  | [] => .ok {}
  | c :: cs =>
    let name := String.ofList ['-', c]
    match form.find? name with
    | none => .error (.unknownOption name [])
    | some o =>
      if o.takesValue then
        if cs.isEmpty then .ok { waiting := some (o, name) }
        else .ok { complete := [(o, String.ofList cs)] }
      else do
        let rest ← letterOptions form cs
        .ok { rest with complete := (o, "") :: rest.complete }

def optionWord (form : CommandForm) (word : List Char) : Except UsageError Cluster :=
  if word.take 2 = ['-', '-'] then form.longOption word else form.letterOptions (word.drop 1)

/-- Read words; what they give stands in order. -/
def read (form : CommandForm) : List String → Except UsageError Given
  | [] => .ok {}
  | word :: words =>
    if word = "--" then .ok { arguments := words }
    else if word.toList.head? = some '-' ∧ word ≠ "-" then do
      let cluster ← form.optionWord word.toList
      match cluster.waiting with
      | none =>
        let g ← form.read words
        .ok (cluster.complete.foldr (fun o g => g.option o.1 o.2) g)
      | some (o, name) => match words with
        | [] => .error (.valueMissing name)
        | value :: words =>
          let g ← form.read words
          .ok ((cluster.complete ++ [(o, value)]).foldr (fun o g => g.option o.1 o.2) g)
    else if form.mixed then do
      let g ← form.read words
      .ok { g with arguments := word :: g.arguments }
    else .ok { arguments := word :: words }

end CommandForm

end ApiManual.CommandLine
