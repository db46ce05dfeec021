import ApiManual.Yaml.Scalar

/-!
# Tokens

The tokens of a text, and the readers of those that are neither brackets nor scalars: directives, anchors,
aliases and tags. Each reader begins behind its indicator and gives what follows the token.
-/

namespace ApiManual.Yaml

open Spots

inductive Token where
  | streamEnd
  | versionDirective (major : Nat)
  | tagDirective (handle start : String)
  | unknownDirective
  | documentStart
  | documentEnd
  | blockSequenceStart
  | blockMappingStart
  | blockEnd
  | flowSequenceStart
  | flowSequenceEnd
  | flowMappingStart
  | flowMappingEnd
  | blockEntry
  | flowEntry
  | key
  | value
  | alias (name : String)
  | anchor (name : String)
  /-- A tag without a handle is given whole. -/
  | tag (handle : Option String) (rest : String)
  | scalar (text : String) (isPlain : Bool)
  deriving DecidableEq, Repr, Inhabited

/-- The tokens of a text, up to a mistake. -/
structure Tokens where
  tokens : List Token
  mistake : Option Error := none
  deriving Repr, Inhabited

/-! ## Anchors and aliases -/

/-- Characters that may follow a name: blanks and some indicators. -/
def endsName (c : Char) : Bool := isBlankOrEnd c || "?:,]\x7d%@`".contains c

def anchorName (s : Spots) : Except Error (String × Spots) :=
  let (name, after) := span s isNameChar
  if name.isEmpty || !endsName (peek after) then .error .anchorForm
  else .ok (String.ofList name, after)

/-! ## Tags -/

def isTagChar (c : Char) : Bool := c.isAlphanum || "-;/?:@&=+$,_.!~*'()[]%".contains c

/-- The characters that bytes spell in UTF-8. -/
def utf8Chars? (bytes : List UInt8) : Option (List Char) :=
  (String.fromUTF8? bytes.toByteArray).map (·.toList)

/-- Read percent escapes behind `bytes` that are read already; a run of them spells characters. -/
def percentDecode? (bytes : List UInt8) : List Char → Option (List Char)
  | '%' :: a :: b :: cs => do
    let high ← hexValue? a
    let low ← hexValue? b
    percentDecode? (bytes ++ [UInt8.ofNat (16 * high + low)]) cs
  | '%' :: _ => none
  | [] => utf8Chars? bytes
  | c :: cs => do return (← utf8Chars? bytes) ++ c :: (← percentDecode? [] cs)

/-- The characters of a tag, of which there is at least one. -/
def tagText (s : Spots) : Except Error (String × Spots) :=
  let (text, after) := span s isTagChar
  match if text.isEmpty then none else percentDecode? [] text with
  | none => .error .tagForm
  | some cs => .ok (String.ofList cs, after)

/-- A handle: an exclamation mark, or a name between two; a single mark is followed by a space. -/
def tagHandle (s : Spots) : Except Error (String × Spots) :=
  if s.peek ≠ '!' then .error .tagForm
  else if s.peekAt 1 = ' ' then .ok ("!", s.drop 1)
  else
    let (name, after) := span (s.drop 1) isNameChar
    if peek after = '!' then .ok (String.ofList ('!' :: name ++ ['!']), after.drop 1)
    else .error .tagForm

/-- A tag, from its exclamation mark on. -/
def tagToken (s : Spots) : Except Error (Token × Spots) := do
  let (token, after) ←
    if s.peekAt 1 = '<' then do
      let (text, after) ← tagText (s.drop 2)
      if peek after = '>' then .ok (Token.tag none text, after.drop 1) else .error .tagForm
    else if isBlankOrEnd (s.peekAt 1) then .ok (Token.tag none "!", s.drop 1)
    else do
      let (handle, after) ←
        if (span (s.drop 1) fun c => !isSpaceOrEnd c).1.contains '!' then tagHandle s
        else .ok ("!", s.drop 1)
      let (text, after) ← tagText after
      .ok (Token.tag (some handle) text, after)
  if isSpaceOrEnd (peek after) then .ok (token, after) else .error .tagForm

/-! ## Directives -/

def skipSpaces (s : Spots) : Spots := s.dropWhile (·.char == ' ')

def versionNumber (s : Spots) : Except Error (Nat × Spots) :=
  let (digits, after) := span s Char.isDigit
  if digits.isEmpty then .error .directiveForm else .ok (Number.digitsValue digits, after)

def versionDirective (s : Spots) : Except Error (Token × Spots) := do
  let (major, after) ← versionNumber (skipSpaces s)
  if peek after ≠ '.' then .error .directiveForm
  else
    let (_, after) ← versionNumber (after.drop 1)
    .ok (.versionDirective major, after)

def tagDirective (s : Spots) : Except Error (Token × Spots) := do
  let (handle, after) ← tagHandle (skipSpaces s)
  if peek after ≠ ' ' then .error .directiveForm
  else
    let (start, after) ← tagText (skipSpaces after)
    .ok (.tagDirective handle start, after)

/-- A directive from behind its percent sign, with its whole line. -/
def directive (s : Spots) : Except Error (Token × Spots) := do
  let (name, after) := span s isNameChar
  if name.isEmpty || !isSpaceOrEnd (peek after) then .error .directiveForm
  else
    let (token, after) ←
      if name = "YAML".toList then versionDirective after
      else if name = "TAG".toList then tagDirective after
      else .ok (.unknownDirective, after.dropWhile fun p => !isBreakOrEnd p.char)
    match if isSpaceOrEnd (peek after) then lineEnd after else none with
    | some after => .ok (token, after)
    | none => .error .directiveForm

end ApiManual.Yaml
