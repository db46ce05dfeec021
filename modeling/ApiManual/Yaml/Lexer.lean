import ApiManual.Yaml.Token

/-!
# From text to tokens

`tokens` reads a text from left to right. A mapping's key shows only at its colon: a `KeyCandidate`
remembers where a key may have begun, and the colon puts the tokens of a key in front of it. A mistake ends
the tokens: those that can be told without reading as far are kept.

* **Indents.** Outside brackets, a token to the right of the last indent opens a block collection, and
  one to the left of it closes what is open there.
* **Candidates.** There is one for each level of brackets at most. It holds for the line it stands on
  and for 1024 characters. One that stands at the indent of a block must be a key.
-/

namespace ApiManual.Yaml

open Spots

structure KeyCandidate where
  /-- The number of tokens in front of it. -/
  position : Nat
  index : Nat
  line : Nat
  column : Nat
  required : Bool
  deriving DecidableEq, Repr

structure Lexer where
  rest : Spots
  /-- The tokens read so far, the last one first, and how many they are. -/
  tokens : List Token := []
  count : Nat := 0
  /-- The columns of the open blocks, the innermost first. -/
  indents : List Nat := []
  /-- The candidate of the innermost level of brackets, and those around it. -/
  candidate : Option KeyCandidate := none
  outer : List (Option KeyCandidate) := []
  /-- Whether a key may begin at the next token. -/
  keyAllowed : Bool := true
  deriving Repr

namespace Lexer

/-- Whether brackets are open. -/
def inFlow (l : Lexer) : Bool := !l.outer.isEmpty

/-- The least column of what is inside the innermost block. -/
def least (l : Lexer) : Nat :=
  match l.indents with
  | [] => 0
  | column :: _ => column + 1

def emit (l : Lexer) (token : Token) : Lexer :=
  { l with tokens := token :: l.tokens, count := l.count + 1 }

/-- Put tokens, given last one first, behind the first `position` ones. -/
def insert (l : Lexer) (position : Nat) (tokens : List Token) : Lexer :=
  let behind := l.count - position
  { l with tokens := l.tokens.take behind ++ tokens ++ l.tokens.drop behind
           count := l.count + tokens.length }

/-! ## Candidates -/

/-- Give up a candidate. -/
def giveUp : Option KeyCandidate → Except Error (Option KeyCandidate)
  | none => .ok none
  | some c => if c.required then .error .keyUnfinished else .ok none

/-- A candidate, unless the next token is too far from it. -/
def refresh (line index : Nat) (candidate : Option KeyCandidate) : Except Error (Option KeyCandidate) :=
  match candidate with
  | none => .ok none
  | some c => if c.line ≠ line ∨ index - c.index > 1024 then giveUp (some c) else .ok (some c)

def refreshAll (l : Lexer) : Except Error Lexer := do
  let here := l.rest.headD default
  let candidate ← refresh here.line here.index l.candidate
  let outer ← l.outer.mapM (refresh here.line here.index)
  return { l with candidate, outer }

def dropCandidate (l : Lexer) : Except Error Lexer := do
  return { l with candidate := ← giveUp l.candidate }

/-- Note that the next token may begin a key. -/
def saveCandidate (l : Lexer) : Except Error Lexer := do
  if !l.keyAllowed then return l
  let l ← l.dropCandidate
  let here := l.rest.headD default
  let required := !l.inFlow && l.indents.head? == some here.column
  let candidate : KeyCandidate :=
    { position := l.count, index := here.index, line := here.line, column := here.column, required }
  return { l with candidate := some candidate }

/-! ## Indents -/

/-- Close the blocks to the right of a column, or all of them; inside brackets nothing is closed. -/
def unwind (column : Option Nat) (l : Lexer) : Lexer :=
  if l.inFlow then l
  else
    let closes (indent : Nat) : Bool := match column with
      | none => true
      | some column => column < indent
    let closed := (l.indents.takeWhile closes).length
    { l with tokens := List.replicate closed .blockEnd ++ l.tokens, count := l.count + closed
             indents := l.indents.drop closed }

/-- Open a block at a column to the right of the last indent, behind `position` tokens. -/
def openBlock (l : Lexer) (column position : Nat) (token : Token) : Lexer :=
  if l.least ≤ column then { l.insert position [token] with indents := column :: l.indents } else l

/-! ## Tokens -/

/-- Take over what a reader of a token gave. -/
def take (l : Lexer) (r : Except Error (Token × Spots)) : Except Error Lexer := do
  let (token, rest) ← r
  return { l.emit token with rest }

def drop (l : Lexer) (n : Nat) (token : Token) : Lexer := { l.emit token with rest := l.rest.drop n }

/-- A directive or a document mark, which close all blocks. -/
def documentToken (l : Lexer) (r : Except Error (Token × Spots)) : Except Error Lexer := do
  let l ← (l.unwind none).dropCandidate
  Lexer.take { l with keyAllowed := false } r

def openBracket (l : Lexer) (token : Token) : Except Error Lexer := do
  let l ← l.saveCandidate
  return Lexer.drop { l with candidate := none, outer := l.candidate :: l.outer, keyAllowed := true } 1 token

def closeBracket (l : Lexer) (token : Token) : Except Error Lexer := do
  let l ← l.dropCandidate
  match l.outer with
  | [] => throw .bracketUnopened
  | candidate :: outer => return Lexer.drop { l with candidate, outer, keyAllowed := false } 1 token

def flowEntry (l : Lexer) : Except Error Lexer := do
  let l ← l.dropCandidate
  return Lexer.drop { l with keyAllowed := true } 1 .flowEntry

def blockEntry (l : Lexer) : Except Error Lexer := do
  if !l.inFlow && !l.keyAllowed then throw .entryMisplaced
  let l := if l.inFlow then l else l.openBlock (column l.rest) l.count .blockSequenceStart
  let l ← l.dropCandidate
  return Lexer.drop { l with keyAllowed := true } 1 .blockEntry

def explicitKey (l : Lexer) : Except Error Lexer := do
  if !l.inFlow && !l.keyAllowed then throw .keyMisplaced
  let l := if l.inFlow then l else l.openBlock (column l.rest) l.count .blockMappingStart
  let l ← l.dropCandidate
  return Lexer.drop { l with keyAllowed := !l.inFlow } 1 .key

/-- A colon: the candidate becomes a key, or the value belongs to an explicit key. -/
def value (l : Lexer) : Except Error Lexer := do
  match l.candidate with
  | some c =>
    let l := { l.insert c.position [.key] with candidate := none }
    let l := if l.inFlow then l else l.openBlock c.column c.position .blockMappingStart
    return Lexer.drop { l with keyAllowed := false } 1 .value
  | none =>
    if !l.inFlow && !l.keyAllowed then throw .valueMisplaced
    let l := if l.inFlow then l else l.openBlock (column l.rest) l.count .blockMappingStart
    return Lexer.drop { l with keyAllowed := !l.inFlow } 1 .value

/-- A token that may begin a key and is followed by none. -/
def keyToken (l : Lexer) (r : Except Error (Token × Spots)) : Except Error Lexer := do
  let l ← l.saveCandidate
  Lexer.take { l with keyAllowed := false } r

def scalarToken (isPlain : Bool) (r : Except Error (List Char × Spots)) : Except Error (Token × Spots) :=
  r.map fun (text, after) => (.scalar (String.ofList text) isPlain, after)

def plainToken (l : Lexer) : Except Error Lexer := do
  let l ← l.saveCandidate
  let (text, broken, rest) := plain l.inFlow l.least l.rest
  return { l.emit (.scalar (String.ofList text) true) with rest, keyAllowed := broken }

def blockToken (l : Lexer) (folded : Bool) : Except Error Lexer := do
  let l ← l.dropCandidate
  Lexer.take { l with keyAllowed := true } (scalarToken false (block folded l.least (l.rest.drop 1)))

/-- Whether a plain scalar may begin with the next character. -/
def plainStarts (l : Lexer) : Bool :=
  let c := peek l.rest
  !(isBlankOrEnd c || "-?:,[]\x7b\x7d#&*!|>'\"%@`".contains c) ||
    (!isBlankOrEnd (peekAt l.rest 1) && (c == '-' || (!l.inFlow && (c == '?' || c == ':'))))

/-- Read the next token, which begins at the next character. -/
def token (l : Lexer) : Except Error Lexer :=
  let c := peek l.rest
  let behind := l.rest.drop 1
  let indicates := isBlankOrEnd (peekAt l.rest 1)
  let atMark := column l.rest = 0 ∧ atDocumentMark l.rest
  if c = '%' ∧ column l.rest = 0 then l.documentToken (directive behind)
  else if c = '-' ∧ atMark then l.documentToken (.ok (.documentStart, l.rest.drop 3))
  else if c = '.' ∧ atMark then l.documentToken (.ok (.documentEnd, l.rest.drop 3))
  else if c = '[' then l.openBracket .flowSequenceStart
  else if c = '\x7b' then l.openBracket .flowMappingStart
  else if c = ']' then l.closeBracket .flowSequenceEnd
  else if c = '\x7d' then l.closeBracket .flowMappingEnd
  else if c = ',' then l.flowEntry
  else if c = '-' ∧ indicates then l.blockEntry
  else if c = '?' ∧ (l.inFlow ∨ indicates) then l.explicitKey
  else if c = ':' ∧ (l.inFlow ∨ indicates) then l.value
  else if c = '*' then l.keyToken ((anchorName behind).map fun (name, after) => (.alias name, after))
  else if c = '&' then l.keyToken ((anchorName behind).map fun (name, after) => (.anchor name, after))
  else if c = '!' then l.keyToken (tagToken l.rest)
  else if c = '|' ∧ !l.inFlow then l.blockToken false
  else if c = '>' ∧ !l.inFlow then l.blockToken true
  else if c = '\'' then l.keyToken (scalarToken false (quoted false behind))
  else if c = '"' then l.keyToken (scalarToken false (quoted true behind))
  else if l.plainStarts then l.plainToken
  else .error (.strayCharacter c)

/-! ## The whole text -/

/-- Pass over spaces, comments and, outside brackets, breaks, after which a key may begin. -/
def skipBlank (inFlow : Bool) : (inComment keyAllowed : Bool) → Spots → Bool × Spots
  | _, keyAllowed, [] => (keyAllowed, [])
  | inComment, keyAllowed, p :: rest =>
    if isBreak p.char then skipBlank inFlow false (keyAllowed || !inFlow) rest
    else if p.char = endMark then (keyAllowed, p :: rest)
    else if inComment || p.char == ' ' then skipBlank inFlow inComment keyAllowed rest
    else if p.char = '#' then skipBlank inFlow true keyAllowed rest
    else (keyAllowed, p :: rest)

/-- Go to the next token. -/
def advance (l : Lexer) : Except Error Lexer := do
  let (keyAllowed, rest) := skipBlank l.inFlow false l.keyAllowed l.rest
  let l ← refreshAll { l with keyAllowed, rest }
  return l.unwind (some (column rest))

/-- The first token that further reading may change: of those that may begin a key, the first. -/
def unsettled (l : Lexer) : Nat :=
  ((l.candidate :: l.outer).filterMap id).foldl (fun n c => min n c.position) l.count

/-- End at a mistake, behind the settled tokens. -/
def stop (l : Lexer) (settled : Nat) (e : Error) : Tokens :=
  { tokens := l.tokens.reverse.take settled, mistake := some e }

/-- Read all tokens behind the settled ones; every one takes a character at least. -/
def run : Nat → Nat → Lexer → Tokens
  | 0, settled, l => l.stop settled .tokenUnexpected
  | fuel + 1, settled, l => match l.refreshAll with
    | .error e => l.stop settled e
    | .ok l =>
      let settled := l.unsettled
      match l.advance with
      | .error e => l.stop settled e
      | .ok l =>
        if peek l.rest = endMark then
          match (l.unwind none).dropCandidate with
          | .error e => l.stop settled e
          | .ok l => { tokens := (l.emit .streamEnd).tokens.reverse }
        else match l.token with
          | .error e => l.stop settled e
          | .ok l => run fuel settled l

end Lexer

/-- The tokens of a text; a byte order mark in front is passed over. -/
def tokens (cs : List Char) : Tokens :=
  match cs.find? fun c => !isReadable c with
  | some c => { tokens := [], mistake := some (.notReadable c) }
  | none =>
    let s := spots cs
    let s := if peek s = '\ufeff' then s.drop 1 else s
    Lexer.run (s.length + 1) 0 { rest := s }

end ApiManual.Yaml
