/-!
# Characters with their places

A text is read as a list of `Spot`s: each character with its index, line and column. The mark of the
end, which no text holds, comes last. `spots` reads every carriage return as the line feed it stands
for; a byte order mark takes no column.
-/

namespace ApiManual.Yaml

structure Spot where
  char : Char
  index : Nat
  line : Nat
  column : Nat
  deriving DecidableEq, Repr, Inhabited

abbrev Spots := List Spot

/-! ## Classes of characters -/

def endMark : Char := '\x00'

/-- Line feed, next line, line separator and paragraph separator. -/
def isBreak (c : Char) : Bool := c == '\n' || c == '\u0085' || c == '\u2028' || c == '\u2029'

def isGap (c : Char) : Bool := c == ' ' || c == '\t'

def isBreakOrEnd (c : Char) : Bool := isBreak c || c == endMark

def isSpaceOrEnd (c : Char) : Bool := c == ' ' || isBreakOrEnd c

/-- What has to follow an indicator for it to count as one. -/
def isBlankOrEnd (c : Char) : Bool := isGap c || isBreakOrEnd c

def isNameChar (c : Char) : Bool := c.isAlphanum || c == '-' || c == '_'

/-- Characters that a text may hold. -/
def isReadable (c : Char) : Bool :=
  let n := c.toNat
  n = 9 || n = 10 || n = 13 || n = 0x85 || (0x20 ≤ n && n ≤ 0x7e) || (0xa0 ≤ n && n ≤ 0xd7ff) ||
    (0xe000 ≤ n && n ≤ 0xfffd) || 0x10000 ≤ n

/-! ## Spots -/

/-- Line feeds for carriage returns, with and without a line feed behind them. -/
def unifyBreaks : List Char → List Char
  | [] => []
  | '\r' :: '\n' :: cs => '\n' :: unifyBreaks cs
  | c :: cs => (if c = '\r' then '\n' else c) :: unifyBreaks cs

def spotsFrom (index line column : Nat) : List Char → Spots
  | [] => [⟨endMark, index, line, column⟩]
  | c :: cs =>
    ⟨c, index, line, column⟩ ::
      if isBreak c then spotsFrom (index + 1) (line + 1) 0 cs
      else spotsFrom (index + 1) line (if c = '\ufeff' then column else column + 1) cs

def spots (cs : List Char) : Spots := spotsFrom 0 0 0 (unifyBreaks cs)

namespace Spots

/-- The character that comes next. -/
def peek : Spots → Char
  | [] => endMark
  | p :: _ => p.char

/-- The character after `n` others. -/
def peekAt (s : Spots) (n : Nat) : Char := peek (s.drop n)

def column : Spots → Nat
  | [] => 0
  | p :: _ => p.column

def chars (s : Spots) : List Char := s.map (·.char)

/-- The characters up to the first outside a class, and what follows them. -/
def span (s : Spots) (p : Char → Bool) : List Char × Spots :=
  (chars (s.takeWhile (p ·.char)), s.dropWhile (p ·.char))

/-- Whether a line of three hyphens or three points begins here. -/
def atDocumentMark (s : Spots) : Bool :=
  let mark := chars (s.take 3)
  (mark == ['-', '-', '-'] || mark == ['.', '.', '.']) && isBlankOrEnd (s.peekAt 3)

theorem length_dropWhile_le (s : Spots) (p : Spot → Bool) : (s.dropWhile p).length ≤ s.length :=
  (List.dropWhile_sublist p).length_le

end Spots

end ApiManual.Yaml
