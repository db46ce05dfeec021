import ApiManual.Json.Literal
import ApiManual.Moment
import ApiManual.Text.Quoted

/-!
# Settings

A `Setting` is a value of a configuration as it was written, before it is checked. Unlike in JSON, the
keys of a table may be any scalars, and there are bytes, moments, sets and values that hold themselves.

* `sameKey` says which keys stand for one entry, `keyText` shows a key in a location.
* `toJson` takes a setting for JSON, or says what is in the way.
-/

namespace ApiManual

inductive Setting where
  | null
  | bool (b : Bool)
  | int (i : Int)
  | float (x : Binary64)
  | str (s : String)
  | bytes (bs : List UInt8)
  | moment (m : Moment)
  | list (items : List Setting)
  /-- An item of a list of pairs. -/
  | pair (first second : Setting)
  | set (items : List Setting)
  | table (entries : List (Setting × Setting))
  /-- What stands deep inside a value that holds itself. -/
  | endless
  deriving Repr, Inhabited

namespace Setting

/-! ## Keys -/

/-- The number that a setting counts as when keys are compared. -/
def number? : Setting → Option Binary64
  | bool b => some (.ofInt (if b then 1 else 0))
  | int i => some (.ofInt i)
  | float x => some x
  | _ => none

/-- The whole number that a setting is. -/
def wholeNumber? : Setting → Option Int
  | bool b => some (if b then 1 else 0)
  | int i => some i
  | float x => x.toInt?
  | _ => none

/-- Whether two keys stand for one entry. Whole numbers are compared exactly; a zero has no sign. -/
def sameKey : Setting → Setting → Bool
  | null, null => true
  | str a, str b => a == b
  | bytes a, bytes b => a == b
  | moment a, moment b => a.same b
  | a, b => match a.wholeNumber?, b.wholeNumber? with
    | some i, some j => i == j
    | none, none => match a.number?, b.number? with
      | some x, some y => x == y
      | _, _ => false
    | _, _ => false

/-- A byte inside quotes. -/
def byteText (quote : Char) (b : UInt8) : List Char :=
  let c := Char.ofNat b.toNat
  if b.toNat < 0x20 ∨ 0x7f ≤ b.toNat then
    if c = '\t' then ['\\', 't'] else if c = '\n' then ['\\', 'n'] else if c = '\r' then ['\\', 'r']
    else '\\' :: 'x' :: Text.hexDigits 2 b.toNat
  else if c = quote ∨ c = '\\' then ['\\', c]
  else [c]

/-- Bytes between quotes, as a text would be, behind a `b`. -/
def bytesText (bs : List UInt8) : String :=
  let quote := Text.quoteFor (bs.map fun b => Char.ofNat b.toNat)
  String.ofList ('b' :: quote :: bs.flatMap (byteText quote) ++ [quote])

/-- A key as a location shows it. -/
def keyText : Setting → String
  | str s => s
  | bool b => if b then "1" else "0"
  | int i => toString i
  | null => "None"
  | float x => Json.plain (.float x)
  | bytes bs => bytesText bs
  | moment m => m.shown
  | list _ | pair .. | set _ | table _ | endless => ""

/-- Set a key, which keeps the place where it first came. -/
def setKey (key value : Setting) : List (Setting × Setting) → List (Setting × Setting)
  | [] => [(key, value)]
  | (k, v) :: entries =>
    if k.sameKey key then (k, value) :: entries else (k, v) :: setKey key value entries

/-- The entries of a table whose keys are texts. -/
def named : List (Setting × Setting) → Entries Setting
  | [] => []
  | (str name, value) :: entries => (name, value) :: named entries
  | _ :: entries => named entries

/-! ## Settings and JSON -/

mutual

def ofJson : Json → Setting
  | .null => null
  | .bool b => bool b
  | .int i => int i
  | .float x => float x
  | .str s => str s
  | .arr items => list (ofJsonList items)
  | .obj fields => table (ofJsonFields fields)

def ofJsonList : List Json → List Setting
  | [] => []
  | v :: vs => ofJson v :: ofJsonList vs

def ofJsonFields : List (String × Json) → List (Setting × Setting)
  | [] => []
  | (name, v) :: fields => (str name, ofJson v) :: ofJsonFields fields

end

/-- Why a setting is no JSON. -/
inductive NoJson where
  /-- It holds bytes, a moment or a set, or has a key that is no plain scalar. -/
  | wordless
  /-- It holds itself. -/
  | endless
  /-- It holds a float that is infinite or no number, where these do not pass. -/
  | notFinite
  deriving DecidableEq, Repr

/-- How a client that is given such a body words its own error; what has no word breaks it off. -/
def NoJson.message? : NoJson → Option String
  | wordless => none
  | endless => some "Circular reference detected"
  | notFinite => some "Out of range float values are not JSON compliant"

/-- A float as JSON; `strict` says that it has to be finite. -/
def floatToJson (strict : Bool) (x : Binary64) : Except NoJson Json :=
  if strict && !x.isFinite then .error .notFinite else .ok (.float x)

/-- A key as a name of an object. -/
def name (strict : Bool) : Setting → Except NoJson String
  | str s => .ok s
  | int i => .ok (toString i)
  | float x => Json.compact <$> floatToJson strict x
  | bool b => .ok (Json.bool b).compact
  | null => .ok Json.null.compact
  | _ => .error .wordless

mutual

/-- The setting as JSON, up to the first part of it that is in the way. -/
def toJson (strict : Bool) : Setting → Except NoJson Json
  | null => .ok .null
  | bool b => .ok (.bool b)
  | int i => .ok (.int i)
  | float x => floatToJson strict x
  | str s => .ok (.str s)
  | list items => .arr <$> toJsonList strict items
  | pair first second => do .ok (.arr [← toJson strict first, ← toJson strict second])
  | table entries => .obj <$> toJsonFields strict entries
  | bytes _ | moment _ | set _ => .error .wordless
  | endless => .error .endless

def toJsonList (strict : Bool) : List Setting → Except NoJson (List Json)
  | [] => .ok []
  | item :: items => do .ok ((← toJson strict item) :: (← toJsonList strict items))

def toJsonFields (strict : Bool) : List (Setting × Setting) → Except NoJson (List (String × Json))
  | [] => .ok []
  | (key, value) :: entries => do
    let name ← key.name strict
    let v ← toJson strict value
    .ok ((name, v) :: (← toJsonFields strict entries))

end

end Setting

end ApiManual
