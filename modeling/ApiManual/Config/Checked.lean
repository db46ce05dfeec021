import ApiManual.Config.Setting
import ApiManual.Number.Numeral

/-!
# Checked settings

A `Checked` value is a value read from settings or the list of all problems met on the way: putting
checked values together keeps the problems of all of them, in order.

* `Checker.text`, `Checker.integer`, `Checker.decimal`, `Checker.flag` read scalars. Numbers and flags
  are also read from each other and from texts; bytes count as the text that they spell.
* `Checker.listOf` and `Checker.tableOf` check every item; a problem's location leads to the item.
* `required` and `optional` read the fields of a record, which may have further entries.
-/

namespace ApiManual

namespace Problem

inductive Kind where
  | missing
  | notText
  | textGarbled
  | notList
  | notTable
  | notRecord
  | notInteger
  | integerUnreadable
  | integerTooLong
  | integerFractional
  | notFinite
  | notNumber
  | numberUnreadable
  | notFlag
  | flagUnreadable
  /-- A value that cannot be sent as JSON. -/
  | notJson
  deriving DecidableEq, Repr, Inhabited

def Kind.name : Kind → String
  | missing => "missing"
  | notText => "string_type"
  | textGarbled => "string_unicode"
  | notList => "list_type"
  | notTable => "dict_type"
  | notRecord => "model_type"
  | notInteger => "int_type"
  | integerUnreadable => "int_parsing"
  | integerTooLong => "int_parsing_size"
  | integerFractional => "int_from_float"
  | notFinite => "finite_number"
  | notNumber => "float_type"
  | numberUnreadable => "float_parsing"
  | notFlag => "bool_type"
  | flagUnreadable => "bool_parsing"
  | notJson => "not_json"

end Problem

structure Problem where
  location : List String
  kind : Problem.Kind
  deriving DecidableEq, Repr, Inhabited

inductive Checked (α : Type) where
  | ok (a : α)
  | problems (ps : List Problem)
  deriving Repr

namespace Checked

variable {α β : Type}

instance : Applicative Checked where
  pure := ok
  seq f x := match f, x () with
    | ok f, ok a => ok (f a)
    | ok _, problems ps => problems ps
    | problems ps, ok _ => problems ps
    | problems ps, problems qs => problems (ps ++ qs)

def problem (kind : Problem.Kind) : Checked α := problems [{ location := [], kind }]

/-- Say in which part the problems are. -/
def under (part : String) : Checked α → Checked α
  | ok a => ok a
  | problems ps => problems (ps.map fun p => { p with location := part :: p.location })

end Checked

open Checked

abbrev Checker (α : Type) := Setting → Checked α

namespace Checker

variable {α : Type}

/-! ## Scalars -/

/-- The text that bytes spell. -/
def bytesAsText? (bs : List UInt8) : Option String := String.fromUTF8? bs.toByteArray

def text : Checker String
  | .str s => .ok s
  | .bytes bs => match bytesAsText? bs with
    | some s => .ok s
    | none => problem .textGarbled
  | _ => problem .notText

/-- Whether a whole number fits in 64 bits with a sign. -/
def isShort (i : Int) : Bool := -(Nat.pow 2 63 : Nat) ≤ i && i < (Nat.pow 2 63 : Nat)

def integerOfFloat (x : Binary64) : Checked Int :=
  match x.isFinite, x.toInt? with
  | false, _ => problem .notFinite
  | true, none => problem .integerFractional
  | true, some i => if i.natAbs < Nat.pow 2 63 then .ok i else problem .integerTooLong

def integerOfText (s : String) : Checked Int :=
  if s.length > 4300 then problem .integerTooLong
  else match Number.readWholeNumber? s.toList with
    | some i => .ok i
    | none => problem .integerUnreadable

def integer : Checker Int
  | .int i => .ok i
  | .bool b => .ok (if b then 1 else 0)
  | .float x => integerOfFloat x
  | .str s => integerOfText s
  | .bytes bs => match bytesAsText? bs with
    | some s => integerOfText s
    | none => problem .integerUnreadable
  | _ => problem .notInteger

def decimalOfText (s : String) : Checked Binary64 :=
  match Number.readSettingFloat? s.toList with
  | some x => .ok x
  | none => problem .numberUnreadable

def decimal : Checker Binary64
  | .float x => .ok x
  | .int i => if (Binary64.ofInt i).isFinite then .ok (.ofInt i) else problem .notNumber
  | .bool b => .ok (.ofInt (if b then 1 else 0))
  | .str s => decimalOfText s
  | .bytes bs => match bytesAsText? bs with
    | some s => decimalOfText s
    | none => problem .numberUnreadable
  | _ => problem .notNumber

def trueWords : List String := ["1", "on", "t", "true", "y", "yes"]

def falseWords : List String := ["0", "off", "f", "false", "n", "no"]

def flagOfInt (i : Int) : Checked Bool :=
  if i = 0 then .ok false else if i = 1 then .ok true else problem .flagUnreadable

def flagOfText (s : String) : Checked Bool :=
  let word := String.ofList (s.toList.map Char.toLower)
  if trueWords.contains word then .ok true
  else if falseWords.contains word then .ok false
  else problem .flagUnreadable

def flag : Checker Bool
  | .bool b => .ok b
  | .int i => if isShort i then flagOfInt i else problem .notFlag
  | .float x => match x.toInt? with
    | some i => if i.natAbs < Nat.pow 2 63 then flagOfInt i else problem .notFlag
    | none => problem .notFlag
  | .str s => flagOfText s
  | .bytes bs => match bytesAsText? bs with
    | some s => flagOfText s
    | none => problem .flagUnreadable
  | _ => problem .notFlag

/-- Any value, as it is. -/
def anything : Checker Setting := .ok

/-- Any value that can be sent as JSON. -/
def sendable : Checker Json := fun setting => match setting.toJson false with
  | .ok v => .ok v
  | .error _ => problem .notJson

/-- Null, or what another checker takes. -/
def nullable (check : Checker α) : Checker (Option α)
  | .null => .ok none
  | setting => some <$> check setting

/-! ## Collections -/

/-- Check items that are numbered from `i` on. -/
def itemsFrom (check : Checker α) : Nat → List Setting → Checked (List α)
  | _, [] => .ok []
  | i, item :: items => List.cons <$> (check item).under (toString i) <*> itemsFrom check (i + 1) items

def listOf (check : Checker α) : Checker (List α)
  | .list items | .set items => itemsFrom check 0 items
  | _ => problem .notList

/-- Check entries: first the key, then the value. -/
def entriesOf (check : Checker α) : List (Setting × Setting) → Checked (List (String × α))
  | [] => .ok []
  | (key, value) :: entries =>
    let name := ((text key).under "[key]").under key.keyText
    (fun name a rest => (name, a) :: rest) <$> name <*> (check value).under key.keyText <*>
      entriesOf check entries

def tableOf (check : Checker α) : Checker (Entries α)
  | .table entries => Entries.ofPairs <$> entriesOf check entries
  | _ => problem .notTable

/-! ## Records -/

/-- Read a record from the entries that have a name. -/
def record (read : Entries Setting → Checked α) : Checker α
  | .table entries => read (Setting.named entries)
  | _ => problem .notRecord

end Checker

variable {α : Type}

/-- A field that must be there. -/
def required (fields : Entries Setting) (name : String) (check : Checker α) : Checked α :=
  match fields.get? name with
  | some setting => (check setting).under name
  | none => (problem .missing).under name

/-- A field with a value of its own where it is left out. -/
def optional (fields : Entries Setting) (name : String) (absent : α) (check : Checker α) : Checked α :=
  match fields.get? name with
  | some setting => (check setting).under name
  | none => .ok absent

end ApiManual
