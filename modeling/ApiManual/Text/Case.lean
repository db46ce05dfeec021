import ApiManual.Text.CaseTable

/-!
# Upper and lower case

* `upper` maps every character, some to several (`upper "ß" = "SS"`).
* `lower` maps a capital sigma by its place: the final form ends a word.
-/

namespace ApiManual.Text

def upperChar (c : Char) : List Char :=
  if c.toNat < 128 then [c.toUpper]
  else match upperExpansions.lookup c.toNat with
    | some codes => codes.map Char.ofNat
    | none => match upperRuns.findSome? (·.move? c.toNat) with
      | some code => [Char.ofNat code]
      | none => [c]

def upper (cs : List Char) : List Char := cs.flatMap upperChar

/-- Whether the nearest character that is not passed over has case. -/
def meetsCased (cs : List Char) : Bool :=
  match cs.dropWhile caseIgnorableRanges.holds with
  | [] => false
  | c :: _ => casedRanges.holds c

/-- The lower case of one character between the text before it, last character first, and the text
after it. -/
def lowerChar (before after : List Char) (c : Char) : List Char :=
  if c.toNat < 128 then [c.toLower]
  else if c = '\u03a3' then
    if meetsCased before && !meetsCased after then ['\u03c2'] else ['\u03c3']
  else if c = '\u0130' then ['i', '\u0307']
  else match lowerRuns.findSome? (·.move? c.toNat) with
    | some code => [Char.ofNat code]
    | none => [c]

/-- `lower` behind a text, last character first. -/
def lowerFrom : List Char → List Char → List Char
  | _, [] => []
  | before, c :: cs => lowerChar before cs c ++ lowerFrom (c :: before) cs

def lower (cs : List Char) : List Char := lowerFrom [] cs

end ApiManual.Text
