import ApiManual.Yaml.Kind
import ApiManual.Yaml.Lexer
import ApiManual.Entries

/-!
# Nodes

`Document.ofTokens?` puts the tokens of a text together to the one node of its document; a text without a
document has none. Where a node is left out, an empty plain scalar stands for it.

An alias stands for the node that its anchor names. Inside the collection that it names, an alias is
`Node.enclosing`, as a tree cannot hold itself; `Document.named?` finds the collection.
-/

namespace ApiManual.Yaml

inductive Node where
  | scalar (kind : Kind) (text : String)
  | sequence (kind : Kind) (items : List Node)
  | mapping (kind : Kind) (entries : List (Node × Node))
  /-- The collection around with this anchor. -/
  | enclosing (anchor : String)
  deriving Repr, Inhabited

/-- The node where none is written. -/
def Node.empty : Node := .scalar .null ""

/-- A document: its node and the nodes with an anchor. -/
structure Document where
  root : Node
  anchors : Entries Node := []
  deriving Repr, Inhabited

def Document.named? (d : Document) (anchor : String) : Option Node := d.anchors.get? anchor

/-- What reading tokens carries along. -/
structure Reading where
  tokens : List Token
  /-- What is wrong behind the tokens. -/
  mistake : Option Error := none
  /-- The nodes with an anchor; a collection that is still read has none yet. -/
  anchors : Entries (Option Node) := []
  /-- What the handles of tags stand for. -/
  handles : Entries String := []
  deriving Repr, Inhabited

abbrev Reader (α : Type) := StateT Reading (Except Error) α

namespace Reader

/-- The next token; behind the last one lies the mistake. -/
def peek : Reader Token := do
  let r ← get
  match r.tokens, r.mistake with
  | token :: _, _ => return token
  | [], some e => throw e
  | [], none => return .streamEnd

def advance : Reader Unit := modify fun r => { r with tokens := r.tokens.drop 1 }

/-- Pass over a token if it comes next. -/
def accept (token : Token) : Reader Bool := do
  if (← peek) = token then advance; return true
  else return false

def expect (token : Token) : Reader Unit := do
  if !(← accept token) then throw .tokenUnexpected

/-! ## Properties -/

/-- The anchor and the tag of a node. -/
structure Properties where
  anchor : Option String := none
  tag : Option (Option String × String) := none

def anchor? : Reader (Option String) := do
  match ← peek with
  | .anchor name => advance; return some name
  | _ => return none

def tag? : Reader (Option (Option String × String)) := do
  match ← peek with
  | .tag handle rest => advance; return some (handle, rest)
  | _ => return none

/-- An anchor and a tag in either order. -/
def properties : Reader Properties := do
  match ← anchor? with
  | some name => return { anchor := some name, tag := ← tag? }
  | none => match ← tag? with
    | some tag => return { anchor := ← anchor?, tag := some tag }
    | none => return {}

/-- The whole text of a tag. The tag `!` leaves the kind to the form of the node, like no tag. -/
def tagName (tag : Option (Option String × String)) : Reader (Option String) := do
  match tag with
  | none => return none
  | some (none, rest) => return some rest
  | some (some handle, rest) => match (← get).handles.get? handle with
    | some start => return some (start ++ rest)
    | none => throw (.handleUndefined handle)

def scalarNode (tag : Option String) (text : String) (isPlain : Bool) : Node :=
  match tag with
  | none => .scalar (if isPlain then Kind.ofPlain text.toList else .str) text
  | some tag => .scalar (if tag = "!" then Kind.ofForm text.toList else Kind.ofTag tag) text

def collectionKind (tag : Option String) (untagged : Kind) : Kind :=
  match tag with
  | none => untagged
  | some tag => if tag = "!" then untagged else Kind.ofTag tag

/-! ## Anchors -/

def setAnchor (name : Option String) (node : Option Node) : Reader Unit := do
  match name with
  | none => return
  | some name => modify fun r => { r with anchors := r.anchors.set name node }

/-- Refuse an anchor that is set already. -/
def checkAnchor (name : Option String) : Reader Unit := do
  match name with
  | none => return
  | some name => if (← get).anchors.has name then throw (.anchorRepeated name)

/-- The node that an alias stands for. -/
def aliased (name : String) : Reader Node := do
  match (← get).anchors.get? name with
  | none => throw (.aliasUndefined name)
  | some none => return .enclosing name
  | some (some node) => return node

/-- Read a collection whose anchor is known inside it. -/
def anchored (name : Option String) (read : Reader Node) : Reader Node := do
  setAnchor name none
  let node ← read
  setAnchor name (some node)
  return node

/-! ## Nodes -/

/-- What nodes may stand at a place: block collections, and items at the indent of their key. -/
inductive Place where
  | flow
  | block
  | blockValue
  deriving DecidableEq, Repr

mutual

def node : Nat → Place → Reader Node
  | 0, _ => throw .tokenUnexpected
  | fuel + 1, place => do
    match ← peek with
    | .alias name => advance; aliased name
    | _ =>
      let p ← properties
      let tag ← tagName p.tag
      match ← peek with
      | .scalar text isPlain =>
        advance
        checkAnchor p.anchor
        let n := scalarNode tag text isPlain
        setAnchor p.anchor (some n)
        return n
      | token =>
        if place = .blockValue ∧ token = .blockEntry then
          checkAnchor p.anchor
          anchored p.anchor (.sequence (collectionKind tag .list) <$> levelItems fuel)
        else if token = .flowSequenceStart then
          advance
          checkAnchor p.anchor
          anchored p.anchor (.sequence (collectionKind tag .list) <$> flowItems fuel true)
        else if token = .flowMappingStart then
          advance
          checkAnchor p.anchor
          anchored p.anchor (.mapping (collectionKind tag .map) <$> flowEntries fuel true)
        else if place ≠ .flow ∧ token = .blockSequenceStart then
          advance
          checkAnchor p.anchor
          anchored p.anchor (.sequence (collectionKind tag .list) <$> blockItems fuel)
        else if place ≠ .flow ∧ token = .blockMappingStart then
          advance
          checkAnchor p.anchor
          anchored p.anchor (.mapping (collectionKind tag .map) <$> blockEntries fuel)
        else if p.anchor.isSome || tag.isSome then
          checkAnchor p.anchor
          let n := scalarNode tag "" true
          setAnchor p.anchor (some n)
          return n
        else throw .tokenUnexpected

/-- A node, or the empty one before a token that follows nodes. -/
def nodeOr : Nat → Place → List Token → Reader Node
  | 0, _, _ => throw .tokenUnexpected
  | fuel + 1, place, followers => do
    if followers.contains (← peek) then return .empty else node fuel place

/-- The value behind a colon, or the empty node where there is none. -/
def valueOr : Nat → Place → List Token → Reader Node
  | 0, _, _ => throw .tokenUnexpected
  | fuel + 1, place, followers => do
    if ← accept .value then nodeOr fuel place followers else return .empty

/-- The items of a block sequence. -/
def blockItems : Nat → Reader (List Node)
  | 0 => throw .tokenUnexpected
  | fuel + 1 => do
    if ← accept .blockEntry then
      let item ← nodeOr fuel .block [.blockEntry, .blockEnd]
      return item :: (← blockItems fuel)
    else
      expect .blockEnd
      return []

/-- The items of a sequence at the indent of its key. -/
def levelItems : Nat → Reader (List Node)
  | 0 => throw .tokenUnexpected
  | fuel + 1 => do
    if ← accept .blockEntry then
      let item ← nodeOr fuel .block [.blockEntry, .key, .value, .blockEnd]
      return item :: (← levelItems fuel)
    else return []

def blockEntries : Nat → Reader (List (Node × Node))
  | 0 => throw .tokenUnexpected
  | fuel + 1 => do
    if ← accept .key then
      let key ← nodeOr fuel .blockValue [.key, .value, .blockEnd]
      let value ← valueOr fuel .blockValue [.key, .value, .blockEnd]
      return (key, value) :: (← blockEntries fuel)
    else
      expect .blockEnd
      return []

/-- The items up to a closing bracket; `first` says that no comma has to come before. -/
def flowItems : Nat → Bool → Reader (List Node)
  | 0, _ => throw .tokenUnexpected
  | fuel + 1, first => do
    if ← accept .flowSequenceEnd then return []
    if !first then expect .flowEntry
    if ← accept .key then
      let key ← nodeOr fuel .flow [.value, .flowEntry, .flowSequenceEnd]
      let value ← valueOr fuel .flow [.flowEntry, .flowSequenceEnd]
      return .mapping .map [(key, value)] :: (← flowItems fuel false)
    else if ← accept .flowSequenceEnd then return []
    else
      let item ← node fuel .flow
      return item :: (← flowItems fuel false)

/-- The entries up to a closing brace. -/
def flowEntries : Nat → Bool → Reader (List (Node × Node))
  | 0, _ => throw .tokenUnexpected
  | fuel + 1, first => do
    if ← accept .flowMappingEnd then return []
    if !first then expect .flowEntry
    if ← accept .key then
      let key ← nodeOr fuel .flow [.value, .flowEntry, .flowMappingEnd]
      let value ← valueOr fuel .flow [.flowEntry, .flowMappingEnd]
      return (key, value) :: (← flowEntries fuel false)
    else if ← accept .flowMappingEnd then return []
    else
      let key ← node fuel .flow
      return (key, .empty) :: (← flowEntries fuel false)

end

/-! ## Documents -/

def defaultHandles : Entries String := [("!", "!"), ("!!", Kind.tagStart)]

/-- Read directives: at most one of the version, and one for each handle. -/
def directives : Nat → Bool → Entries String → Reader (Entries String)
  | 0, _, _ => throw .tokenUnexpected
  | fuel + 1, versioned, handles => do
    match ← peek with
    | .versionDirective major =>
      if versioned then throw .directiveRepeated
      if major ≠ 1 then throw (.versionUnsupported major)
      advance
      directives fuel true handles
    | .tagDirective handle start =>
      if handles.has handle then throw .directiveRepeated
      advance
      directives fuel versioned (handles.set handle start)
    | .unknownDirective => advance; directives fuel versioned handles
    | _ => return handles

/-- The content of a document that begins with a mark. -/
def content (fuel : Nat) : Reader Node := do
  match ← peek with
  | .versionDirective _ | .tagDirective .. | .unknownDirective | .documentStart | .documentEnd
  | .streamEnd => return .empty
  | _ => node fuel .block

/-- The node of the only document. -/
def document (fuel : Nat) : Reader (Option Node) := do
  match ← peek with
  | .streamEnd => return none
  | .versionDirective _ | .tagDirective .. | .unknownDirective | .documentStart =>
    let handles ← directives fuel false []
    modify fun r => { r with handles := defaultHandles.merge handles }
    expect .documentStart
    some <$> content fuel
  | _ =>
    modify fun r => { r with handles := defaultHandles }
    some <$> node fuel .block

/-- Refuse anything behind the document but marks of its end. -/
def documentEnd : Reader Unit := do
  modify fun r => { r with tokens := r.tokens.dropWhile (· == .documentEnd) }
  match ← peek with
  | .streamEnd => return
  | .documentStart => throw .severalDocuments
  | _ => throw .tokenUnexpected

end Reader

/-- The document of a text. A step of the reader passes a token or enters a node, so that three steps for
a token are enough. -/
def Document.ofTokens? (t : Tokens) : Except Error (Option Document) := do
  let fuel := 4 * t.tokens.length + 4
  let read : Reader (Option Node) := do
    let n ← Reader.document fuel
    Reader.documentEnd
    return n
  let (root, r) ← read.run { tokens := t.tokens, mistake := t.mistake }
  return root.map fun root =>
    { root, anchors := r.anchors.filterMap fun (name, node) => node.map fun node => (name, node) }

end ApiManual.Yaml
