import EventContract.Table
import EventContract.Yaml.Token
/-!
# Nodes of a document

A document is a tree of scalars, sequences and mappings, in which an alias may stand for a node that
was given an anchor before it. `Document.ofTokens?` builds the tree from tokens.

Anchored nodes are numbered. A new anchor takes as its number how many names have been given out,
so that giving a name anew makes the next new name share its number; an alias refers to the last
node of its number.
-/

namespace EventContract.Yaml

/-- A node. -/
inductive Node where
  | alias (number : Nat)
  | scalar (tag : Option Tag) (plain : Bool) (text : String)
  | sequence (tag : Option Tag) (items : List Node)
  | mapping (tag : Option Tag) (entries : List (Node × Node))
  deriving Inhabited

/-- A scalar that is left out. -/
def Node.missing : Node := .scalar none true ""

/-- A document's tree, its anchored nodes in the order in which they begin, and how many beginnings
and ends of nodes it has. -/
structure Document where
  root : Node
  anchored : Array (Nat × Node)
  size : Nat

/-- What has been built so far, and the tokens that are left. -/
structure Building where
  tokens : List Token
  /-- What each tag handle stands for. -/
  handles : List (Tag × Tag)
  /-- The number of each anchor's name. -/
  names : Table Nat
  anchored : Array (Nat × Node)
  size : Nat

/-- A step of building, which may fail. -/
abbrev Build := StateT Building Option

namespace Build

def peek : Build (Option Token) := do
  return (← get).tokens.head?

def skip : Build Unit :=
  modify fun b => { b with tokens := b.tokens.drop 1 }

def skipIf (token : Token) : Build Bool := do
  if (← peek) == some token then skip; return true
  else return false

/-- Past the next token, which has to be the given one. -/
def expect (token : Token) : Build Unit := do
  guard (← skipIf token)

/-- Counts beginnings and ends of nodes. -/
def count (n : Nat) : Build Unit :=
  modify fun b => { b with size := b.size + n }

/-- The next token is one of the given ones, or there is none. -/
def atAny (tokens : List Token) : Build Bool := do
  return (← peek).all tokens.contains

def missing : Build Node := do
  count 1
  return Node.missing

def aliasNumber (name : String) : Build Nat := do
  match (← get).names.get? name with
  | some number => return number
  | none => failure

/-- Gives an anchor its number, and the node that will have it its place. -/
def openAnchor (name : String) : Build Nat := do
  let b ← get
  let number := b.names.length
  set { b with
    names := b.names.put name number
    anchored := b.anchored.push (number, Node.missing) }
  return b.anchored.size

def closeAnchor (place : Option Nat) (node : Node) : Build Node := do
  match place with
  | none => return node
  | some place =>
    modify fun b => { b with anchored := b.anchored.modify place fun (n, _) => (n, node) }
    return node

/-- The full name of a tag. A tag without a handle is its own. -/
def tagName (handle suffix : Tag) : Build Tag := do
  if handle.isEmpty then return suffix
  else match (← get).handles.find? fun entry => entry.1 == handle with
    | some (_, expansion) => return expansion ++ suffix
    | none => failure

/-- The name of the anchor in front of a node, if there is one. -/
def readAnchor : Build (Option String) := do
  match ← peek with
  | some (.anchor name) => skip; return some name
  | _ => return none

/-- The handle and the suffix of the tag in front of a node, if there is one. -/
def readTag : Build (Option (Tag × Tag)) := do
  match ← peek with
  | some (.tag handle suffix) => skip; return some (handle, suffix)
  | _ => return none

/-- The anchor and the tag in front of a node, in either order. -/
def readProperties : Build (Option String × Option Tag) := do
  let anchor ← readAnchor
  let tag ← readTag
  let anchor ← if anchor.isNone && tag.isSome then readAnchor else pure anchor
  let tag ← match tag with
    | none => pure none
    | some (handle, suffix) => some <$> tagName handle suffix
  return (anchor, tag)

mutual

/-- A node. Outside flow collections it may be a block, and where a key or a value is due, its
sequence may stand at the column of the mapping. -/
def node : Nat → Bool → Bool → Build Node
  | 0, _, _ => failure
  | fuel + 1, block, indentless => do
    match ← peek with
    | some (.alias name) =>
      skip
      count 1
      return .alias (← aliasNumber name)
    | _ =>
      let (anchor, tag) ← readProperties
      match ← peek with
      | some (.scalar text plain) =>
        skip
        let place ← anchor.mapM openAnchor
        count 1
        closeAnchor place (.scalar tag plain text)
      | some .entry =>
        if indentless then
          let place ← anchor.mapM openAnchor
          count 2
          closeAnchor place (.sequence tag (← indentlessItems fuel))
        else leftOut anchor tag
      | some .flowSequence =>
        skip
        let place ← anchor.mapM openAnchor
        count 2
        closeAnchor place (.sequence tag (← flowItems fuel true))
      | some .flowMapping =>
        skip
        let place ← anchor.mapM openAnchor
        count 2
        closeAnchor place (.mapping tag (← flowEntries fuel true))
      | some .blockSequence =>
        if block then
          skip
          let place ← anchor.mapM openAnchor
          count 2
          closeAnchor place (.sequence tag (← blockItems fuel))
        else leftOut anchor tag
      | some .blockMapping =>
        if block then
          skip
          let place ← anchor.mapM openAnchor
          count 2
          closeAnchor place (.mapping tag (← blockEntries fuel))
        else leftOut anchor tag
      | _ => leftOut anchor tag

/-- A node of which there is nothing but its anchor or tag. -/
def leftOut (anchor : Option String) (tag : Option Tag) : Build Node := do
  guard (anchor.isSome || tag.isSome)
  let place ← anchor.mapM openAnchor
  count 1
  closeAnchor place (.scalar tag true "")

def blockItems : Nat → Build (List Node)
  | 0 => failure
  | fuel + 1 => do
    if ← skipIf .entry then
      let item ← if ← atAny [.entry, .blockEnd] then missing else node fuel true false
      return item :: (← blockItems fuel)
    else
      expect .blockEnd
      return []

/-- The items of a sequence at the column of the mapping around it. -/
def indentlessItems : Nat → Build (List Node)
  | 0 => failure
  | fuel + 1 => do
    if ← skipIf .entry then
      let item ← if ← atAny [.entry, .key, .value, .blockEnd] then missing
        else node fuel true false
      return item :: (← indentlessItems fuel)
    else return []

def blockPart : Nat → Build Node
  | 0 => failure
  | fuel + 1 => do
    if ← atAny [.key, .value, .blockEnd] then missing else node fuel true true

def blockEntries : Nat → Build (List (Node × Node))
  | 0 => failure
  | fuel + 1 => do
    if ← skipIf .key then
      let key ← blockPart fuel
      let value ← if ← skipIf .value then blockPart fuel else missing
      return (key, value) :: (← blockEntries fuel)
    else
      expect .blockEnd
      return []

/-- The one entry of a mapping without braces in a flow sequence, its mark already read. Where the
key is left out, the token behind the mark goes with it. -/
def flowPair : Nat → Build (List (Node × Node))
  | 0 => failure
  | fuel + 1 => do
    let key ←
      if ← atAny [.value, .comma, .flowSequenceEnd] then
        skip
        missing
      else node fuel false false
    let value ←
      if ← skipIf .value then
        if ← atAny [.comma, .flowSequenceEnd] then missing else node fuel false false
      else missing
    return [(key, value)]

/-- The items of a flow sequence; all but the first follow a comma. -/
def flowItems : Nat → Bool → Build (List Node)
  | 0, _ => failure
  | fuel + 1, first => do
    if ← skipIf .flowSequenceEnd then return []
    else
      unless first do expect .comma
      if ← skipIf .key then
        count 2
        let item : Node := .mapping none (← flowPair fuel)
        return item :: (← flowItems fuel false)
      else if ← skipIf .flowSequenceEnd then return []
      else
        let item ← node fuel false false
        return item :: (← flowItems fuel false)

def flowValue : Nat → Build Node
  | 0 => failure
  | fuel + 1 => do
    if ← skipIf .value then
      if ← atAny [.comma, .flowMappingEnd] then missing else node fuel false false
    else missing

/-- The entries of a flow mapping; all but the first follow a comma. A key without a mark has no
value. -/
def flowEntries : Nat → Bool → Build (List (Node × Node))
  | 0, _ => failure
  | fuel + 1, first => do
    if ← skipIf .flowMappingEnd then return []
    else
      unless first do expect .comma
      if ← skipIf .key then
        let key ← if ← atAny [.value, .comma, .flowMappingEnd] then missing
          else node fuel false false
        let value ← flowValue fuel
        return (key, value) :: (← flowEntries fuel false)
      else if ← skipIf .flowMappingEnd then return []
      else
        let key ← node fuel false false
        let value ← missing
        return (key, value) :: (← flowEntries fuel false)

end

/-- The directives in front of a document, of which only one may be a version, 1.1 or 1.2, and none
may repeat a handle. -/
def directives : Nat → Bool → Build Bool
  | 0, _ => failure
  | fuel + 1, versionSeen => do
    match ← peek with
    | some (.version major minor) =>
      guard (!versionSeen && major == 1 && (minor == 1 || minor == 2))
      skip
      directives fuel true
    | some (.tagHandle handle expansion) =>
      guard (!(← get).handles.any fun entry => entry.1 == handle)
      skip
      modify fun b => { b with handles := b.handles ++ [(handle, expansion)] }
      directives fuel versionSeen
    | _ => return versionSeen

/-- The handles that every document has unless its directives say otherwise. -/
def defaultHandles : List (Tag × Tag) :=
  [(tagOf "!", tagOf "!"), (tagOf "!!", tagOf "tag:yaml.org,2002:")]

/-- The directives are done; handles they did not mention have their usual meaning. -/
def closeDirectives : Build Unit :=
  modify fun b => { b with handles := b.handles ++ defaultHandles }

/-- Tokens in front of a document's first node. -/
def startsExplicitly : Option Token → Bool
  | some (.version _ _) => true
  | some (.tagHandle _ _) => true
  | some .documentStart => true
  | _ => false

/-- The node of a document whose beginning is marked. -/
def markedRoot (fuel : Nat) : Build Node := do
  match ← peek with
  | none => missing
  | some token =>
    if startsExplicitly (some token) || token == .documentEnd then missing else node fuel true false

def skipEnds : Nat → Build Unit
  | 0 => failure
  | fuel + 1 => do
    if ← skipIf .documentEnd then skipEnds fuel

/-- The only document of a text; a text without any has a scalar that is left out. -/
def root (fuel : Nat) : Build Node := do
  let token ← peek
  let node ←
    if token.isNone then missing
    else if startsExplicitly token then
      let _ ← directives fuel false
      expect .documentStart
      closeDirectives
      markedRoot fuel
    else
      closeDirectives
      node fuel true false
  skipEnds fuel
  guard (← peek).isNone
  return node

end Build

/-- The one document that tokens make up. -/
def Document.ofTokens? (tokens : List Token) : Option Document := do
  let (root, b) ← (Build.root (3 * tokens.length + 3)).run ⟨tokens, [], [], #[], 0⟩
  return ⟨root, b.anchored, b.size⟩

end EventContract.Yaml
