/-!
# The Mersenne twister

A `Generator` holds the 624 words of MT19937 and the place of the next one to be given out.
`Generator.ofSeed` fills them from the 32-bit words of the seed's magnitude, and `Generator.next` gives
one tempered word and the generator after it.
-/

namespace ApiManual

structure Generator where
  words : Array UInt32
  position : Nat
  deriving DecidableEq, Repr, Inhabited

namespace Generator

/-- Number of words of the state. -/
def size : Nat := 624

/-- Mix the high bits of a word into the low ones. -/
def fold30 (w : UInt32) : UInt32 := w ^^^ (w >>> 30)

/-- The state of a single-word seed. -/
def fill (seed : UInt32) : Array UInt32 :=
  (List.range (size - 1)).foldl
    (fun words i => words.push (1812433253 * fold30 (words.getD i 0) + (i + 1).toUInt32)) #[seed]

/-- The words of a natural to the base `2 ^ 32`, lowest first; zero has one word. -/
def seedWords (n : Nat) : List UInt32 :=
  if n < 0x100000000 then [n.toUInt32] else n.toUInt32 :: seedWords (n / 0x100000000)
termination_by n
decreasing_by omega

/-- Write a word at `i`, which runs from 1 to 623 and round again; the last word is carried to
the front when the end is passed. -/
def place (words : Array UInt32) (i : Nat) (w : UInt32) : Array UInt32 × Nat :=
  let words := words.setIfInBounds i w
  if i + 1 < size then (words, i + 1) else (words.setIfInBounds 0 (words.getD (size - 1) 0), 1)

/-- One round of mixing in the seed's words. -/
def absorb (key : Array UInt32) (state : (Array UInt32 × Nat) × Nat) : (Array UInt32 × Nat) × Nat :=
  let ((words, i), j) := state
  let w := (words.getD i 0 ^^^ (fold30 (words.getD (i - 1) 0) * 1664525)) + key.getD j 0 + j.toUInt32
  (place words i w, if j + 1 < key.size then j + 1 else 0)

/-- One round of mixing in the places. -/
def spread (state : Array UInt32 × Nat) : Array UInt32 × Nat :=
  let (words, i) := state
  place words i ((words.getD i 0 ^^^ (fold30 (words.getD (i - 1) 0) * 1566083941)) - i.toUInt32)

/-- The generator of a seed; the sign of the seed makes no difference. -/
def ofSeed (seed : Int) : Generator :=
  let key := (seedWords seed.natAbs).toArray
  let absorbed := Nat.repeat (absorb key) (max size key.size) ((fill 19650218, 1), 0)
  let (words, _) := Nat.repeat spread (size - 1) absorbed.1
  { words := words.setIfInBounds 0 0x80000000, position := size }

/-- The word that replaces the one at `i`. -/
def twistAt (words : Array UInt32) (i : Nat) : UInt32 :=
  let y := (words.getD i 0 &&& 0x80000000) ||| (words.getD ((i + 1) % size) 0 &&& 0x7fffffff)
  words.getD ((i + 397) % size) 0 ^^^ (y >>> 1) ^^^ (if y &&& 1 == 1 then 0x9908b0df else 0)

/-- Replace all words, each from the ones already replaced and the ones still to be. -/
def twist (words : Array UInt32) : Array UInt32 :=
  (List.range size).foldl (fun words i => words.setIfInBounds i (twistAt words i)) words

def temper (w : UInt32) : UInt32 :=
  let w := w ^^^ (w >>> 11)
  let w := w ^^^ ((w <<< 7) &&& 0x9d2c5680)
  let w := w ^^^ ((w <<< 15) &&& 0xefc60000)
  w ^^^ (w >>> 18)

/-- The next word, and the generator after it. -/
def next (g : Generator) : UInt32 × Generator :=
  let g := if g.position < size then g else { words := twist g.words, position := 0 }
  (temper (g.words.getD g.position 0), { g with position := g.position + 1 })

end Generator

end ApiManual
