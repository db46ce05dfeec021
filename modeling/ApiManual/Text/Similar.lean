/-!
# Similar texts

Two texts share their longest common part, and again what they share before it and behind it.

* `sharedLength` counts the characters that two texts share so.
* `mostSimilar` lists at most three texts of which six characters in ten or more are shared.
-/

namespace ApiManual.Text

def commonStart : List Char → List Char → Nat
  | c :: cs, d :: ds => if c = d then commonStart cs ds + 1 else 0
  | _, _ => 0

/-- A part that two texts have in common, by where it begins in each. -/
structure CommonPart where
  first : Nat
  second : Nat
  length : Nat
  deriving DecidableEq, Repr, Inhabited

/-- The longest common part; of several, the one that begins first in `s`, then in `t`. -/
def longestCommon (s t : List Char) : CommonPart :=
  let parts := (List.range s.length).flatMap fun i => (List.range t.length).map fun j =>
    { first := i, second := j, length := commonStart (s.drop i) (t.drop j) : CommonPart }
  parts.foldl (fun best part => if best.length < part.length then part else best) ⟨0, 0, 0⟩

def sharedLength (s t : List Char) : Nat :=
  match longestCommon s t with
  | ⟨first, second, length⟩ =>
    if _h : 0 < length ∧ first < s.length then
      length + sharedLength (s.take first) (t.take second) +
        sharedLength (s.drop (first + length)) (t.drop (second + length))
    else 0
termination_by s.length
decreasing_by
  · rw [List.length_take]
    exact Nat.lt_of_le_of_lt (Nat.min_le_left ..) _h.2
  · rw [List.length_drop]
    omega

/-- Characters of both texts that are shared, and all of them. -/
def similarity (s t : List Char) : Nat × Nat := (2 * sharedLength s t, s.length + t.length)

/-- The candidates most like a text, the best first. -/
def mostSimilar (text : String) (candidates : List String) : List String :=
  let rated := candidates.map fun c => (c, similarity c.toList text.toList)
  let similar := rated.filter fun (_, shared, all) => 10 * shared ≥ 6 * all
  let ranked := similar.mergeSort fun (c, x) (d, y) =>
    x.1 * y.2 > y.1 * x.2 || (x.1 * y.2 == y.1 * x.2 && d ≤ c)
  (ranked.map (·.1)).take 3

end ApiManual.Text
