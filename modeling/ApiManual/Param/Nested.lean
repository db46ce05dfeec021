import ApiManual.Param.Basic
import ApiManual.Text.Search

/-!
# Nested names

Names such as `user.name`, `user[name]`, `tags[]` and `items.*.id` place a value inside objects and
lists. `segments` reads a name into keys, `*` and `[]` standing for the first element, and
`expand` places all parameters, in order, into one object. `expandRead` does so where the text of a list or an object
may be too long to be read.
-/

namespace ApiManual

open Text

/-- The keys of a name. -/
def segments (name : String) : List String :=
  let cs := name.toList
  let dotted :=
    if cs.contains '[' then
      replaceAll [']'] [] (replaceAll ['['] ['.'] (replaceAll [']', '['] ['.'] cs))
    else cs
  (splitOn '.' dotted).map fun key => if key = ['*'] ∨ key = [] then "0" else String.ofList key

/-- Why a value has no place. -/
inductive Misplaced where
  /-- A list is entered by a key that is no digits. -/
  | keyInList
  /-- The digits of a list's key are not all decimal. -/
  | notDecimal (key : String)
  deriving DecidableEq, Repr

/-- The index that a key gives in a list. -/
def listIndex (key : String) : Except Misplaced Nat :=
  if isDigits key.toList then
    match Number.readInteger? key.toList with
    | some i => .ok i.toNat
    | none => .error (.notDecimal key)
  else .error .keyInList

/-- Write an item, with fillers up to it in a list that is too short. -/
def setItem {α : Type} (filler : α) : List α → Nat → α → List α
  | [], 0, v => [v]
  | [], i + 1, v => filler :: setItem filler [] i v
  | _ :: items, 0, v => v :: items
  | item :: items, i + 1, v => item :: setItem filler items i v

/-- What stands at a place that has to hold a container for the next key: what is there if it is one,
else a new list for digits or a new object. -/
def containerFor (next : String) (there : Json) : Json :=
  if there.isContainer then there
  else if isDigits next.toList then .arr [] else .obj []

/-- Place a value below a container. -/
def place (value : Json) : List String → Json → Except Misplaced Json
  | [], there => .ok there
  | [key], .arr items => do .ok (.arr (setItem .null items (← listIndex key) value))
  | key :: next :: rest, .arr items => do
    let i ← listIndex key
    let child ← place value (next :: rest) (containerFor next (items.getD i .null))
    .ok (.arr (setItem .null items i child))
  | [key], .obj fields => .ok (.obj (Entries.set fields key value))
  | key :: next :: rest, .obj fields => do
    let child ← place value (next :: rest) (containerFor next ((Entries.get? fields key).getD .null))
    .ok (.obj (Entries.set fields key child))
  | _ :: _, there => .ok there

/-- The failure of a name that has no place. -/
def Misplaced.failure (name : String) : Misplaced → Failure
  | keyInList => .defect (.mixedNotation name)
  | notDecimal key => .fault (.indexNumeral key)

/-- Place one parameter into the object. -/
def expandOne (fields : Entries Json) (param : String × Param) : Except Failure (Entries Json) :=
  match place param.2.decoded (segments param.1) (.obj fields) with
  | .ok v => .ok v.members
  | .error e => .error (e.failure param.1)

/-- The values of all parameters under their nested names. -/
def expand (params : Entries Param) : Except Failure (Entries Json) := params.foldlM expandOne []

/-! ## Values that are read first -/

/-- Place one parameter, whose value is read first. -/
def expandReadOne (fields : Entries Json) (param : String × Param) : Except Failure (Entries Json) :=
  if param.2.type.isOverlong param.2.value then .error (.fault .integerTooLong) else expandOne fields param

/-- The values of all parameters under their nested names, where a value may be overlong. -/
def expandRead (params : Entries Param) : Except Failure (Entries Json) := params.foldlM expandReadOne []

end ApiManual
