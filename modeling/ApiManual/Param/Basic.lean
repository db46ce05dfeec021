import ApiManual.Failure
import ApiManual.Number.Numeral
import ApiManual.Random.Draw

/-!
# Parameters

A `Param` is one documented path, query or body parameter. Its value is the author's example, cast to
the declared type, or a placeholder drawn from the generator.
-/

namespace ApiManual

structure Param where
  type : ValueType := .string
  description : String := ""
  required : Bool := false
  value : Json := .null
  deriving Repr, Inhabited

namespace ValueType

/-- Texts that stand for false; every other text stands for true. -/
def falseTexts : List String := ["false", "0", ""]

/-- Read an example as a value of the type. -/
def cast (type : ValueType) (text : String) : Except Defect Json :=
  match type with
  | boolean => .ok (.bool (!falseTexts.contains (String.ofList (Text.lower (Text.trim text.toList)))))
  | integer => match Number.readInteger? text.toList with
    | some i => .ok (.int i)
    | none => .error (.badExample text type)
  | number | float => match Number.readFloat? text.toList with
    | some x => .ok (.float x)
    | none => .error (.badExample text type)
  | _ => .ok (.str text)

/-- A value in place of an example that is missing. Lists and objects are empty and draw nothing. -/
def placeholder (type : ValueType) (g : Generator) : Json × Generator :=
  match type with
  | integer =>
    let (i, g) := g.below 20
    (.int (i + 1), g)
  | number | float =>
    let (x, g) := g.uniformThousand
    (.float (x.roundTo 2), g)
  | boolean =>
    let (i, g) := g.below 2
    (.bool (i == 0), g)
  | array => (.str "[]", g)
  | object | json => (.str "\x7b\x7d", g)
  | string | other _ =>
    let (cs, g) := g.alphanumerics 12
    (.str (String.ofList cs), g)

end ValueType

namespace Json

/-- A text that is JSON becomes the value it spells; all else stays. -/
def decoded (v : Json) : Json :=
  match v with
  | .str s => match read s with
    | .ok v => v
    | .error _ => .str s
  | v => v

end Json

/-- Whether reading a list or an object from its text comes to an integer of too many digits. Nothing else is shown for
such a text: what reads it breaks off. -/
def ValueType.isOverlong (type : ValueType) (v : Json) : Bool :=
  type.isStructured && match v with
    | .str s => Json.isOverlong s
    | _ => false

/-- The value, with lists and objects read from their text, which is not overlong. -/
def Param.decoded (p : Param) : Json := if p.type.isStructured then p.value.decoded else p.value

end ApiManual
