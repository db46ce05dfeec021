import ApiManual.Config.Setting
import ApiManual.Text.Base64
import ApiManual.Yaml.Kind

/-!
# What scalars mean

`scalarSetting` reads the text of a scalar by its kind. Numbers lose their underscores first; a text that
has the form of its kind need not have a value.
-/

namespace ApiManual.Yaml

/-! ## Whole numbers -/

/-- Drop the letter that may announce a base. -/
def dropBaseMark (base : Nat) (cs : List Char) : List Char :=
  let marks := if base = 2 then ['b', 'B'] else if base = 8 then ['o', 'O'] else ['x', 'X']
  match cs with
  | '0' :: c :: cs => if marks.contains c then cs else '0' :: c :: cs
  | cs => cs

/-- A number to a base, with blanks around it, a sign and the mark of the base. -/
def readBase? (base : Nat) (cs : List Char) : Option Int :=
  let (negative, digits) := Number.takeSign (Number.plainDigits (Text.trimBy Number.isPadding cs))
  let digits := dropBaseMark base digits
  if digits.isEmpty then none
  else (digits.foldlM (fun n c => ((hexValue? c).filter (· < base)).map (base * n + ·)) 0).map
    (Number.negateIf negative)

/-- Parts of sixty, the greatest first. -/
def sixtiethsSum (parts : List Int) : Int := parts.foldl (fun n part => 60 * n + part) 0

/-- A number without its sign in one of the forms of its kind. -/
def magnitude? (cs : List Char) : Option Int :=
  match cs with
  | ['0'] => some 0
  | '0' :: 'b' :: digits => readBase? 2 digits
  | '0' :: 'x' :: digits => readBase? 16 digits
  | '0' :: digits => readBase? 8 ('0' :: digits)
  | cs => ((Text.splitOn ':' cs).mapM Number.readInteger?).map sixtiethsSum

def integerSetting (text : String) : Except Unreadable Setting :=
  let (negative, digits) := Number.takeSign (text.toList.filter (· != '_'))
  if digits.isEmpty then .error .numberEmpty
  else match magnitude? digits with
    | some i => .ok (.int (if negative then -i else i))
    | none => .error (.integer text)

/-! ## Floats -/

/-- Parts of sixty, the last first, each rounded as it is added. -/
def sixtieths (parts : List Binary64) : Binary64 :=
  (parts.foldl (fun (sum, base) part => (Binary64.add sum (part.scale base), 60 * base))
    (Binary64.zero false, 1)).1

/-- A float without its sign in one of the forms of its kind, in small letters. -/
def floatMagnitude? (cs : List Char) : Option Binary64 :=
  if cs = ".inf".toList then some (.infinite false)
  else if cs = ".nan".toList then some .nan
  else if cs.contains ':' then ((Text.splitOn ':' cs).mapM Number.readFloat?).map fun parts => sixtieths parts.reverse
  else Number.readFloat? cs

def floatSetting (text : String) : Except Unreadable Setting :=
  let cs := (text.toList.filter (· != '_')).map Char.toLower
  let (negative, digits) := Number.takeSign cs
  if cs.isEmpty then .error .numberEmpty
  else match floatMagnitude? digits with
    | some x => .ok (.float (if negative then x.negate else x))
    | none => .error (.float text)

/-! ## Other scalars -/

def booleanSetting (text : String) : Except Unreadable Setting :=
  let word := String.ofList (text.toList.map Char.toLower)
  if ["yes", "true", "on"].contains word then .ok (.bool true)
  else if ["no", "false", "off"].contains word then .ok (.bool false)
  else .error (.boolean text)

def timestampSetting (text : String) : Except Unreadable Setting :=
  match Timestamp.moment? (dropFinalFeed text.toList) with
  | none => .error (.timestamp text)
  | some m => if m.isReal then .ok (.moment m) else .error (.noSuchTime text)

/-- Bytes in base 64; their text is ASCII. -/
def binarySetting (text : String) : Except Error Setting :=
  match if text.toList.all (·.toNat < 128) then Text.base64Bytes? text.toList else none with
  | some bs => .ok (.bytes bs)
  | none => .error .binaryForm

/-- The kinds of scalars. -/
def Kind.isScalar : Kind → Bool
  | null | bool | int | float | timestamp | str | binary => true
  | _ => false

/-- The kinds of collections. -/
def Kind.isCollection : Kind → Bool
  | list | map | set | orderedMap | pairs => true
  | _ => false

def scalarSetting (kind : Kind) (text : String) : Except Error Setting :=
  match kind with
  | .null => .ok .null
  | .str => .ok (.str text)
  | .bool => (booleanSetting text).mapError .unreadable
  | .int => (integerSetting text).mapError .unreadable
  | .float => (floatSetting text).mapError .unreadable
  | .timestamp => (timestampSetting text).mapError .unreadable
  | .binary => binarySetting text
  | .merge | .defaultKey | .unknown => .error .tagUnknown
  | .list | .map | .set | .orderedMap | .pairs => .error .kindMismatch

end ApiManual.Yaml
