import ApiManual.Json.Writer

/-!
# Literals

`Json.literal` writes a value the way code writes it down: `None`, `True`, quoted text, and lists and
objects of these. `Json.plain` is the same but for a text, which stands for itself.
-/

namespace ApiManual.Json

open Text

mutual

def literalChars : Json → List Char
  | .null => "None".toList
  | .bool b => if b then "True".toList else "False".toList
  | .int i => intText i
  | .float x => x.text
  | .str s => quoted s.toList
  | .arr items => '[' :: literalItems items ++ [']']
  | .obj fields => '\x7b' :: literalFields fields ++ ['\x7d']

def literalItems : List Json → List Char
  | [] => []
  | [item] => literalChars item
  | item :: next :: items => literalChars item ++ ',' :: ' ' :: literalItems (next :: items)

def literalFields : List (String × Json) → List Char
  | [] => []
  | [(name, v)] => quoted name.toList ++ ':' :: ' ' :: literalChars v
  | (name, v) :: next :: fields =>
    quoted name.toList ++ ':' :: ' ' :: literalChars v ++ ',' :: ' ' :: literalFields (next :: fields)

end

def literal (v : Json) : String := String.ofList (literalChars v)

def plain : Json → String
  | .str s => s
  | v => v.literal

end ApiManual.Json
