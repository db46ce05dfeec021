import ApiManual.Number.Numeral
import ApiManual.Yaml.Error
import ApiManual.Yaml.Spot

/-!
# Scalars

Each reader gives the text of a scalar and what follows it.

* `quoted` reads on from an opening quote. A line break inside stands for a blank, and more of them for
  one less; escapes count in double quotes.
* `plain` reads an unquoted scalar, whose lines are joined in the same way.
* `block` reads the lines below a `|` or `>`.
-/

namespace ApiManual.Yaml

open Spots

/-- How a break is kept: as a line feed, or as the separator it is. -/
def breakText (c : Char) : Char := if c = '\u2028' ∨ c = '\u2029' then c else '\n'

/-- What a first break and the breaks after it stand for in text that is folded. -/
def foldedBreaks (first : Char) (more : List Char) : List Char :=
  if breakText first ≠ '\n' then breakText first :: more
  else if more.isEmpty then [' ']
  else more

/-! ## Quoted scalars -/

/-- The breaks and gaps up to the next text; `lineStart` says that a line begins here. -/
def quotedBreaks (lineStart : Bool) : Spots → Except Error (List Char × Spots)
  | [] => .ok ([], [])
  | p :: rest =>
    if lineStart && atDocumentMark (p :: rest) then .error .markInQuote
    else if isGap p.char then quotedBreaks false rest
    else if isBreak p.char then do
      let (breaks, after) ← quotedBreaks true rest
      .ok (breakText p.char :: breaks, after)
    else .ok ([], p :: rest)

theorem quotedBreaks_length {lineStart : Bool} {s after : Spots} {breaks : List Char}
    (h : quotedBreaks lineStart s = .ok (breaks, after)) : after.length ≤ s.length := by
  induction s generalizing lineStart breaks with
  | nil => simp_all [quotedBreaks]
  | cons p rest ih =>
    rw [quotedBreaks] at h
    split at h
    · cases h
    split at h
    · exact Nat.le_succ_of_le (ih h)
    split at h
    · cases hr : quotedBreaks true rest with
      | error e => simp [hr, bind, Except.bind] at h
      | ok r =>
        obtain ⟨breaks', after'⟩ := r
        simp only [hr, bind, Except.bind, Except.ok.injEq, Prod.mk.injEq] at h
        obtain ⟨-, rfl⟩ := h
        exact Nat.le_succ_of_le (ih hr)
    · simp_all

/-- The gap at the start of `s` inside quotes, folded if it holds a break. -/
def quotedGap (s : Spots) : Except Error (List Char × Spots) :=
  match s.dropWhile (isGap ·.char) with
  | [] => .ok ([], [])
  | p :: rest =>
    if isBreak p.char then do
      let (breaks, after) ← quotedBreaks true rest
      .ok (foldedBreaks p.char breaks, after)
    else .ok (chars (s.takeWhile (isGap ·.char)), p :: rest)

theorem quotedGap_length {p : Spot} {rest after : Spots} {text : List Char}
    (hp : isGap p.char ∨ isBreak p.char) (h : quotedGap (p :: rest) = .ok (text, after)) :
    after.length ≤ rest.length := by
  have hd : isGap p.char = true → ((p :: rest).dropWhile (isGap ·.char)).length ≤ rest.length := by
    intro hg
    simpa [List.dropWhile_cons, hg] using length_dropWhile_le rest _
  rw [quotedGap] at h
  split at h
  · simp only [Except.ok.injEq, Prod.mk.injEq] at h
    simp [← h.2]
  · rename_i q after' hq
    rw [hq] at hd
    have hlen : (q :: after').length ≤ (p :: rest).length := hq ▸ length_dropWhile_le (p :: rest) _
    simp only [List.length_cons] at hlen hd
    split at h
    · cases hr : quotedBreaks true after' with
      | error e => simp [hr, bind, Except.bind] at h
      | ok r =>
        obtain ⟨breaks, after''⟩ := r
        simp only [hr, bind, Except.bind, Except.ok.injEq, Prod.mk.injEq] at h
        have := quotedBreaks_length hr
        obtain ⟨-, rfl⟩ := h
        omega
    · rename_i hb
      simp only [Except.ok.injEq, Prod.mk.injEq] at h
      obtain ⟨-, rfl⟩ := h
      by_cases hg : isGap p.char
      · simpa using hd hg
      · have : q = p := by
          simp [hg] at hq
          exact hq.1.symm
        subst this
        simp_all

/-! ## Escapes -/

/-- Escapes of one character. -/
def shortEscapes : List (Char × Char) := [
  ('0', '\x00'), ('a', '\x07'), ('b', '\x08'), ('t', '\t'), ('\t', '\t'), ('n', '\n'), ('v', '\x0b'),
  ('f', '\x0c'), ('r', '\r'), ('e', '\x1b'), (' ', ' '), ('"', '"'), ('\\', '\\'), ('/', '/'),
  ('N', '\u0085'), ('_', '\u00a0'), ('L', '\u2028'), ('P', '\u2029')]

/-- The number of hexadecimal digits behind the letter of an escape. -/
def escapeWidth? (c : Char) : Option Nat :=
  if c = 'x' then some 2 else if c = 'u' then some 4 else if c = 'U' then some 8 else none

def hexValue? (c : Char) : Option Nat :=
  if c.isDigit then some (c.toNat - 48)
  else if 'a' ≤ c ∧ c ≤ 'f' then some (c.toNat - 87)
  else if 'A' ≤ c ∧ c ≤ 'F' then some (c.toNat - 55)
  else none

/-- The number that the next `width` characters spell in hexadecimal digits. -/
def readHex? (width : Nat) (s : Spots) : Option Nat :=
  let digits := chars (s.take width)
  if digits.length = width then digits.foldlM (fun n c => (hexValue? c).map (16 * n + ·)) 0 else none

/-- The second half of a character that is written as two surrogates. -/
def lowSurrogate? (s : Spots) : Option Nat :=
  if s.peek = '\\' ∧ s.peekAt 1 = 'u' then
    (readHex? 4 (s.drop 2)).filter fun n => 0xdc00 ≤ n && n ≤ 0xdfff
  else none

/-- The character that an escape behind a backslash stands for, and how many characters it takes. A
surrogate that stands alone is no character. -/
def escaped (s : Spots) : Except Error (Char × Nat) :=
  match shortEscapes.lookup s.peek, escapeWidth? s.peek with
  | some c, _ => .ok (c, 1)
  | none, none => .error .escapeForm
  | none, some width =>
    match readHex? width (s.drop 1) with
    | none => .error .escapeForm
    | some n =>
      if n ≥ 0x110000 then .error (.unreadable (.codePoint n))
      else if 0xd800 ≤ n ∧ n ≤ 0xdfff then
        match lowSurrogate? (s.drop (width + 1)) with
        | some m => .ok (Char.ofNat (0x10000 + (n - 0xd800) * 0x400 + (m - 0xdc00)), width + 7)
        | none => .ok ('\ufffd', width + 1)
      else .ok (Char.ofNat n, width + 1)

/-- Put text in front of a scalar. -/
def prepend (text : List Char) (r : Except Error (List Char × Spots)) : Except Error (List Char × Spots) :=
  r.map fun (more, after) => (text ++ more, after)

/-- Read up to the closing quote. -/
def quoted (double : Bool) : Spots → Except Error (List Char × Spots)
  | [] => .error .quoteUnclosed
  | p :: rest =>
    if p.char = endMark then .error .quoteUnclosed
    else if double && p.char == '"' then .ok ([], rest)
    else if !double && p.char == '\'' then
      if peek rest = '\'' then prepend ['\''] (quoted double (rest.drop 1)) else .ok ([], rest)
    else if double && p.char == '\\' then
      if isBreak (peek rest) then
        match _h : quotedBreaks true (rest.drop 1) with
        | .error e => .error e
        | .ok (breaks, after) => prepend breaks (quoted double after)
      else match escaped rest with
        | .error e => .error e
        | .ok (c, n) => prepend [c] (quoted double (rest.drop n))
    else if _hp : isGap p.char ∨ isBreak p.char then
      match _h : quotedGap (p :: rest) with
      | .error e => .error e
      | .ok (text, after) => prepend text (quoted double after)
    else prepend [p.char] (quoted double rest)
termination_by s => s.length
decreasing_by
  · simp only [List.length_drop, List.length_cons]
    omega
  · have := quotedBreaks_length _h
    simp only [List.length_drop] at this
    simp only [List.length_cons]
    omega
  · simp only [List.length_drop, List.length_cons]
    omega
  · have := quotedGap_length _hp _h
    simp only [List.length_cons]
    omega
  · simp only [List.length_cons]
    omega

/-! ## Plain scalars -/

/-- Whether a plain scalar stops here; `flow` says that brackets are open around it. -/
def plainStops (flow : Bool) (s : Spots) : Bool :=
  let c := s.peek
  let next := s.peekAt 1
  isBlankOrEnd c || (c == ':' && (isBlankOrEnd next || (flow && ",[]\x7b\x7d".contains next))) ||
    (flow && ",?[]\x7b\x7d".contains c)

def plainWord (flow : Bool) : Spots → List Char × Spots
  | [] => ([], [])
  | p :: rest =>
    if plainStops flow (p :: rest) then ([], p :: rest)
    else
      let (word, after) := plainWord flow rest
      (p.char :: word, after)

theorem plainWord_length (flow : Bool) (s : Spots) :
    (plainWord flow s).1.length + (plainWord flow s).2.length = s.length := by
  induction s with
  | nil => simp [plainWord]
  | cons p rest ih =>
    rw [plainWord]
    split
    · simp
    · simp only [List.length_cons]
      omega

/-- What lies between two words of a plain scalar. Without text the scalar ends with the first of
them. -/
structure PlainGap where
  text : List Char
  /-- Whether a line ends in the gap. -/
  broken : Bool
  after : Spots

/-- The breaks and spaces up to the next text, or up to a document mark, which is told by `none`. -/
def plainBreaks (lineStart : Bool) : Spots → Option (List Char) × Spots
  | [] => (some [], [])
  | p :: rest =>
    if lineStart && atDocumentMark (p :: rest) then (none, p :: rest)
    else if p.char = ' ' then plainBreaks false rest
    else if isBreak p.char then
      let (breaks, after) := plainBreaks true rest
      (breaks.map (breakText p.char :: ·), after)
    else (some [], p :: rest)

theorem plainBreaks_length (lineStart : Bool) (s : Spots) :
    (plainBreaks lineStart s).2.length ≤ s.length := by
  induction s generalizing lineStart with
  | nil => simp [plainBreaks]
  | cons p rest ih =>
    rw [plainBreaks]
    split
    · simp
    split
    · exact Nat.le_succ_of_le (ih false)
    split
    · exact Nat.le_succ_of_le (ih true)
    · simp

def plainGap (s : Spots) : PlainGap :=
  match s.dropWhile (·.char == ' ') with
  | [] => ⟨[], false, []⟩
  | p :: rest =>
    if isBreak p.char then
      let (breaks, after) := plainBreaks true rest
      match breaks with
      | none => ⟨[], true, after⟩
      | some breaks => ⟨foldedBreaks p.char breaks, true, after⟩
    else ⟨chars (s.takeWhile (·.char == ' ')), false, p :: rest⟩

theorem plainGap_length (s : Spots) : (plainGap s).after.length ≤ s.length := by
  have hd := length_dropWhile_le s (·.char == ' ')
  rw [plainGap]
  split
  · simp
  · rename_i p rest h
    rw [h] at hd
    have := plainBreaks_length true rest
    simp only [List.length_cons] at hd
    split
    · simp only
      split <;> simp only <;> omega
    · simpa using hd

/-- A plain scalar of which a word begins here; its lines stand at `indent` at least. It comes with what
follows it and with whether a line ends just before that. -/
def plain (flow : Bool) (indent : Nat) (s : Spots) : List Char × Bool × Spots :=
  match _h : plainWord flow s with
  | ([], after) => ([], false, after)
  | (c :: word, after) =>
    let gap := plainGap after
    let next := gap.after
    if gap.text.isEmpty || peek next == '#' || (!flow && column next < indent) || plainStops flow next then
      (c :: word, gap.broken, next)
    else
      let (text, broken, rest) := plain flow indent next
      (c :: word ++ gap.text ++ text, broken, rest)
termination_by s.length
decreasing_by
  have h₁ := plainWord_length flow s
  have h₂ := plainGap_length after
  rw [_h] at h₁
  simp only [List.length_cons] at h₁
  omega

/-! ## Block scalars -/

inductive Chomping where
  | strip
  | clip
  | keep
  deriving DecidableEq, Repr

structure BlockHeader where
  chomping : Chomping := .clip
  /-- The indent that is asked for. -/
  indent : Option Nat := none
  deriving Repr

def chompingOf? (c : Char) : Option Chomping :=
  if c = '+' then some .keep else if c = '-' then some .strip else none

/-- The marks behind the indicator, in either order, and what follows them. -/
def blockMarks (s : Spots) : BlockHeader × Spots :=
  let indentOf? (c : Char) : Option Nat := if c.isDigit then some (c.toNat - 48) else none
  match chompingOf? s.peek, indentOf? s.peek with
  | some chomping, _ => match indentOf? (s.peekAt 1) with
    | some n => ({ chomping, indent := some n }, s.drop 2)
    | none => ({ chomping }, s.drop 1)
  | none, some n => match chompingOf? (s.peekAt 1) with
    | some chomping => ({ chomping, indent := some n }, s.drop 2)
    | none => ({ indent := some n }, s.drop 1)
  | none, none => ({}, s)

/-- Pass over spaces and a comment to the end of the line, and over its break. -/
def lineEnd (s : Spots) : Option Spots :=
  let s := s.dropWhile (·.char == ' ')
  let s := if peek s = '#' then s.dropWhile fun p => !isBreakOrEnd p.char else s
  if isBreak (peek s) then some (s.drop 1)
  else if peek s = endMark then some s
  else none

/-- The breaks up to a line with text; spaces before `indent` are passed over. -/
def blockBreaks (indent : Nat) : Spots → List Char × Spots
  | [] => ([], [])
  | p :: rest =>
    if p.char = ' ' ∧ p.column < indent then blockBreaks indent rest
    else if isBreak p.char then
      let (breaks, after) := blockBreaks indent rest
      (breakText p.char :: breaks, after)
    else ([], p :: rest)

theorem blockBreaks_length (indent : Nat) (s : Spots) : (blockBreaks indent s).2.length ≤ s.length := by
  induction s with
  | nil => simp [blockBreaks]
  | cons p rest ih =>
    rw [blockBreaks]
    split
    · exact Nat.le_succ_of_le ih
    split
    · exact Nat.le_succ_of_le ih
    · simp

/-- The breaks and all spaces up to a line with text, with the deepest column that a space reaches. -/
def blockLead (deepest : Nat) : Spots → List Char × Nat × Spots
  | [] => ([], deepest, [])
  | p :: rest =>
    if p.char = ' ' then blockLead (max deepest (p.column + 1)) rest
    else if isBreak p.char then
      let (breaks, deepest, after) := blockLead deepest rest
      (breakText p.char :: breaks, deepest, after)
    else ([], deepest, p :: rest)

/-- What is kept of the last break and of the breaks after it. -/
def Chomping.tail (chomping : Chomping) (ending breaks : List Char) : List Char :=
  match chomping with
  | strip => []
  | clip => ending
  | keep => ending ++ breaks

/-- What joins a line to the next one, which are both at the indent. -/
def blockJoint (folded : Bool) (first next : Char) (ending breaks : List Char) : List Char :=
  if folded && ending == ['\n'] && !isGap first && !isGap next then
    if breaks.isEmpty then [' '] else breaks
  else ending ++ breaks

/-- The break that ends a line, the breaks after it, and what follows them. -/
def lineBreaks (indent : Nat) : Spots → List Char × List Char × Spots
  | [] => ([], [], [])
  | p :: rest =>
    if isBreak p.char then ([breakText p.char], blockBreaks indent rest) else ([], [], p :: rest)

theorem lineBreaks_length (indent : Nat) (s : Spots) : (lineBreaks indent s).2.2.length ≤ s.length := by
  cases s with
  | nil => simp [lineBreaks]
  | cons p rest =>
    rw [lineBreaks]
    split
    · exact Nat.le_succ_of_le (blockBreaks_length indent rest)
    · simp

/-- The lines from one at the indent on. -/
def blockLines (folded : Bool) (chomping : Chomping) (indent : Nat) : Spots → List Char × Spots
  | [] => ([], [])
  | p :: rest =>
    let line := p.char :: chars (rest.takeWhile fun q => !isBreakOrEnd q.char)
    match _h : lineBreaks indent (rest.dropWhile fun q => !isBreakOrEnd q.char) with
    | (ending, breaks, next) =>
      if column next = indent ∧ peek next ≠ endMark then
        let (text, rest) := blockLines folded chomping indent next
        (line ++ blockJoint folded p.char (peek next) ending breaks ++ text, rest)
      else (line ++ chomping.tail ending breaks, next)
termination_by s => s.length
decreasing_by
  have h₁ := lineBreaks_length indent (rest.dropWhile fun q => !isBreakOrEnd q.char)
  have h₂ := length_dropWhile_le rest fun q => !isBreakOrEnd q.char
  rw [_h] at h₁
  simp only [List.length_cons] at h₁ ⊢
  omega

/-- A block scalar from behind its indicator; its lines stand at `least` at least. -/
def block (folded : Bool) (least : Nat) (s : Spots) : Except Error (List Char × Spots) :=
  let (header, s) := blockMarks s
  if header.indent = some 0 ∨ !isSpaceOrEnd (peek s) then .error .blockHeaderForm
  else match lineEnd s with
    | none => .error .blockHeaderForm
    | some s =>
      let least := max least 1
      let (indent, breaks, s) := match header.indent with
        | some n => (least + n - 1, blockBreaks (least + n - 1) s)
        | none =>
          let (breaks, deepest, s) := blockLead 0 s
          (max least deepest, breaks, s)
      if column s = indent ∧ peek s ≠ endMark then
        .ok (let (text, rest) := blockLines folded header.chomping indent s; (breaks ++ text, rest))
      else .ok (header.chomping.tail [] breaks, s)

end ApiManual.Yaml
