import ApiManual.Text.Ranges

/-!
# Blanks

* `isBlank` holds of the white space of every script and of the four information separators.
* `trim`, `trimLeft` and `trimRight` cut blanks off; `trimBy` and its sides cut off any class.
* `firstToken` and `afterToken` part a text behind its first word.
-/

namespace ApiManual.Text

/-- White space, with the separators U+001C to U+001F and the next-line control. -/
def blankRanges : Ranges := [
  (9, 13), (28, 32), (133, 133), (160, 160), (5760, 5760), (8192, 8202), (8232, 8233), (8239, 8239),
  (8287, 8287), (12288, 12288)]

def isBlank (c : Char) : Bool := blankRanges.holds c

/-! ## Trimming -/

def trimLeftBy (p : Char → Bool) (cs : List Char) : List Char := cs.dropWhile p

def trimRightBy (p : Char → Bool) (cs : List Char) : List Char := (cs.reverse.dropWhile p).reverse

def trimBy (p : Char → Bool) (cs : List Char) : List Char := trimRightBy p (trimLeftBy p cs)

def trimLeft (cs : List Char) : List Char := trimLeftBy isBlank cs

def trimRight (cs : List Char) : List Char := trimRightBy isBlank cs

def trim (cs : List Char) : List Char := trimBy isBlank cs

/-! ## Tokens -/

/-- The characters up to the first blank. -/
def firstToken (cs : List Char) : List Char := cs.takeWhile fun c => !isBlank c

/-- What follows `firstToken`. -/
def afterToken (cs : List Char) : List Char := cs.dropWhile fun c => !isBlank c

theorem firstToken_append_afterToken (cs : List Char) : firstToken cs ++ afterToken cs = cs :=
  List.takeWhile_append_dropWhile

end ApiManual.Text
