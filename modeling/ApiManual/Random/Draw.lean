import ApiManual.Random.Twister
import ApiManual.Number.Binary64

/-!
# Draws

Numbers drawn from a `Generator`: `below n` is uniform under `n`, `uniformThousand` lies between 0 and
1000, and `alphanumerics` are letters and digits. Each gives the value and the generator after it.
-/

namespace ApiManual.Generator

/-- Number of bits of a natural. -/
def bitLength (n : Nat) : Nat := if n = 0 then 0 else n.log2 + 1

/-- Draw the top bits of one word until they stand under `n`. More than half of the draws do, so the
bound on the number of draws is never met in practice. -/
def belowWithin : Nat → Nat → Generator → Nat × Generator
  | 0, _, g => (0, g)
  | draws + 1, n, g =>
    let (w, g) := g.next
    let r := w.toNat >>> (32 - bitLength n)
    if r < n then (r, g) else belowWithin draws n g

/-- A natural under `n`, for `n` of at most 32 bits. -/
def below (n : Nat) (g : Generator) : Nat × Generator := belowWithin 4096 n g

/-- A multiple of `2 ^ -53` in `[0, 1)`, as its numerator. -/
def unitNumerator (g : Generator) : Nat × Generator :=
  let (a, g) := g.next
  let (b, g) := g.next
  ((a.toNat >>> 5) * Nat.pow 2 26 + (b.toNat >>> 6), g)

/-- A number between 0 and 1000. -/
def uniformThousand (g : Generator) : Binary64 × Generator :=
  let (numerator, g) := g.unitNumerator
  (Binary64.ofRatio false (1000 * numerator) (Nat.pow 2 53), g)

def letters : List Char :=
  "abcdefghijklmnopqrstuvwxyzABCDEFGHIJKLMNOPQRSTUVWXYZ0123456789".toList

def alphanumeric (g : Generator) : Char × Generator :=
  let (i, g) := g.below letters.length
  (letters.getD i 'a', g)

/-- So many ASCII letters and digits. -/
def alphanumerics : Nat → Generator → List Char × Generator
  | 0, g => ([], g)
  | n + 1, g =>
    let (c, g) := g.alphanumeric
    let (cs, g) := alphanumerics n g
    (c :: cs, g)

end ApiManual.Generator
