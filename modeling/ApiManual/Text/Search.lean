/-!
# Searching and splitting

* `splitAtFirst?` parts a text around the first occurrence of a pattern.
* `replaceAll` replaces the occurrences of a pattern from left to right; occurrences do not overlap.
* `splitOn` and `joinWith` part and join a text at a character.
-/

namespace ApiManual.Text

/-- The text before and after the first occurrence of `pattern`. -/
def splitAtFirst? (pattern : List Char) : List Char → Option (List Char × List Char)
  | [] => if pattern.isEmpty then some ([], []) else none
  | c :: cs =>
    if pattern.isPrefixOf (c :: cs) then some ([], (c :: cs).drop pattern.length)
    else (splitAtFirst? pattern cs).map fun parts => (c :: parts.1, parts.2)

/-- `replaceAll` for a pattern that is not empty, after passing over `skip` characters of an
occurrence that is already replaced. -/
def replaceFrom (pattern replacement : List Char) : Nat → List Char → List Char
  | _, [] => []
  | skip + 1, _ :: cs => replaceFrom pattern replacement skip cs
  | 0, c :: cs =>
    if pattern.isPrefixOf (c :: cs) then
      replacement ++ replaceFrom pattern replacement (pattern.length - 1) cs
    else c :: replaceFrom pattern replacement 0 cs

/-- Every occurrence of `pattern` becomes `replacement`. The empty pattern occurs before every
character and at the end. -/
def replaceAll (pattern replacement cs : List Char) : List Char :=
  if pattern.isEmpty then replacement ++ cs.flatMap (· :: replacement)
  else replaceFrom pattern replacement 0 cs

/-- Put a character in front of the first part. -/
def consFirst (c : Char) : List (List Char) → List (List Char)
  | [] => [[c]]
  | part :: parts => (c :: part) :: parts

/-- The parts between the occurrences of a character: always one more than these. -/
def splitOn (separator : Char) : List Char → List (List Char)
  | [] => [[]]
  | c :: cs => if c = separator then [] :: splitOn separator cs else consFirst c (splitOn separator cs)

def joinWith (separator : List Char) (parts : List (List Char)) : List Char :=
  separator.intercalate parts

end ApiManual.Text
