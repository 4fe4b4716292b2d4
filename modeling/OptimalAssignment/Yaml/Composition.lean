import OptimalAssignment.Yaml.Graph
import OptimalAssignment.Yaml.Lexer

/-!
From tokens to nodes. Anchors name nodes, also before all their parts are known, and an alias stands
for the node with its name. A text holds one document at most. A fault in the text comes up when the
token behind it is wanted, so that what is wrong before it comes up first.
-/
namespace OptimalAssignment.Yaml

/-- What is known while nodes are read: the tokens left and the fault behind them, the places of
anchors, the handles of tags, and the nodes so far. -/
structure Reading where
  tokens : List Token
  fault : Option YamlFault := none
  anchors : List (String × Nat) := []
  handles : List (String × String) := []
  graph : Graph := {}

abbrev ReadingM := StateT Reading (Except YamlFault)

def peekToken : ReadingM Token := do
  let r ← get
  match r.tokens, r.fault with
  | t :: _, _ => return t
  | [], some fault => throw fault
  | [], none => return .streamEnd

def dropToken : ReadingM Unit :=
  modify fun r => { r with tokens := r.tokens.drop 1 }

def accept (t : Token) : ReadingM Bool := do
  if (← peekToken) == t then
    dropToken
    return true
  else return false

def expect (t : Token) : ReadingM Unit := do
  if !(← accept t) then throw .malformed

def isNext (ts : List Token) : ReadingM Bool := do
  return ts.contains (← peekToken)

/-- Add a node; the result is its place. -/
def addNode (t : Tag) (s : Shape) : ReadingM Nat := do
  let g := (← get).graph
  modify fun r => { r with graph := g.push ⟨t, s⟩ }
  return g.size

def emptyNode : ReadingM Nat :=
  addNode .null (.scalar "")

/-- What stands before a node: the name of its anchor, and the handle and the rest of its tag. -/
structure Prelude where
  anchor : Option String := none
  tag : Option (Option String × String) := none

def preludePart (p : Prelude) : ReadingM Prelude := do
  match ← peekToken with
  | .anchor name =>
    if p.anchor.isSome then return p
    dropToken
    return { p with anchor := some name }
  | .tag handle suffix =>
    if p.tag.isSome then return p
    dropToken
    return { p with tag := some (handle, suffix) }
  | _ => return p

def addressOf : Option String × String → ReadingM String
  | (none, suffix) => return suffix
  | (some handle, suffix) => do
    match (← get).handles.lookup handle with
    | some expansion => return expansion ++ suffix
    | none => throw .malformed

/-- The tag at an address; a lone exclamation mark and no address leave the choice open. -/
def chosenTag (address : Option String) (otherwise : Tag) : Tag :=
  match address with
  | none => otherwise
  | some "!" => otherwise
  | some s => Tag.ofAddress s

def scalarTag (address : Option String) (text : String) (plain : Bool) : Tag :=
  chosenTag address (if plain || address.isSome then Tag.ofPlain text else .text)

/-- Add a node under the name of its anchor, if it has one; a name is given once. -/
def addNamed (anchor : Option String) (t : Tag) (s : Shape) : ReadingM Nat := do
  match anchor with
  | none => addNode t s
  | some name =>
    if ((← get).anchors.lookup name).isSome then throw .malformed
    let i ← addNode t s
    modify fun r => { r with anchors := (name, i) :: r.anchors }
    return i

/-- The number of collections that may lie within each other. -/
def levelLimit : Nat := 486

mutual

/-- Read a node at a number of levels below the limit. Outside brackets it may be an indented
collection; behind a key entries need not be indented. -/
def readNode : Nat → Nat → Bool → Bool → ReadingM Nat
  | 0, _, _, _ => throw .malformed
  | _, 0, _, _ => throw .tooDeep
  | fuel + 1, levels + 1, block, unindented => do
    if let .alias name ← peekToken then
      dropToken
      match (← get).anchors.lookup name with
      | some i => return i
      | none => throw .malformed
    else
      let p ← preludePart (← preludePart {})
      let address ← p.tag.mapM addressOf
      let sequence (items : ReadingM (List Nat)) : ReadingM Nat := do
        let i ← addNamed p.anchor (chosenTag address .sequence) (.sequence [])
        let items ← items
        modify fun r => { r with graph := r.graph.reshape i (.sequence items) }
        return i
      let mapping (entries : ReadingM (List (Nat × Nat))) : ReadingM Nat := do
        let i ← addNamed p.anchor (chosenTag address .mapping) (.mapping [])
        let entries ← entries
        modify fun r => { r with graph := r.graph.reshape i (.mapping entries) }
        return i
      let blank : ReadingM Nat := do
        if p.anchor.isSome || address.isSome then
          addNamed p.anchor (scalarTag address "" true) (.scalar "")
        else throw .malformed
      match ← peekToken with
      | .blockEntry =>
        if unindented then sequence (readUnindented fuel levels) else blank
      | .scalar text plain =>
        dropToken
        addNamed p.anchor (scalarTag address text plain) (.scalar text)
      | .flowSequenceStart =>
        dropToken
        sequence (readFlowItems fuel levels true)
      | .flowMappingStart =>
        dropToken
        mapping (readFlowEntries fuel levels true)
      | token =>
        if block && token == .blockSequenceStart then
          dropToken
          sequence (readBlockItems fuel levels)
        else if block && token == .blockMappingStart then
          dropToken
          mapping (readBlockEntries fuel levels)
        else blank

/-- Read a node unless one of the given tokens comes next; there it is empty. -/
def readUnless : Nat → Nat → List Token → Bool → Bool → ReadingM Nat
  | 0, _, _, _, _ => throw .malformed
  | fuel + 1, levels, stops, block, unindented => do
    if ← isNext stops then emptyNode else readNode fuel levels block unindented

def readBlockItems : Nat → Nat → ReadingM (List Nat)
  | 0, _ => throw .malformed
  | fuel + 1, levels => do
    if ← accept .blockEntry then
      let item ← readUnless fuel levels [.blockEntry, .blockEnd] true false
      return item :: (← readBlockItems fuel levels)
    else
      expect .blockEnd
      return []

def readUnindented : Nat → Nat → ReadingM (List Nat)
  | 0, _ => throw .malformed
  | fuel + 1, levels => do
    if ← accept .blockEntry then
      let item ← readUnless fuel levels [.blockEntry, .key, .value, .blockEnd] true false
      return item :: (← readUnindented fuel levels)
    else return []

def readBlockEntries : Nat → Nat → ReadingM (List (Nat × Nat))
  | 0, _ => throw .malformed
  | fuel + 1, levels => do
    let stops := [Token.key, .value, .blockEnd]
    if ← accept .key then
      let key ← readUnless fuel levels stops true true
      let value ← if ← accept .value then readUnless fuel levels stops true true else emptyNode
      return (key, value) :: (← readBlockEntries fuel levels)
    else
      expect .blockEnd
      return []

/-- The value of a key between brackets, empty if there is none. -/
def readFlowValue : Nat → Nat → List Token → ReadingM Nat
  | 0, _, _ => throw .malformed
  | fuel + 1, levels, stops => do
    if ← accept .value then readUnless fuel levels stops false false else emptyNode

/-- The items of a sequence between brackets; an item with a key is a mapping of one entry. -/
def readFlowItems : Nat → Nat → Bool → ReadingM (List Nat)
  | 0, _, _ => throw .malformed
  | _, 0, _ => throw .tooDeep
  | fuel + 1, levels + 1, first => do
    if ← accept .flowSequenceEnd then return []
    if !first then expect .flowEntry
    if ← accept .key then
      let stops := [Token.flowEntry, .flowSequenceEnd]
      let i ← addNode .mapping (.mapping [])
      let key ← readUnless fuel levels (.value :: stops) false false
      let value ← readFlowValue fuel levels stops
      modify fun r => { r with graph := r.graph.reshape i (.mapping [(key, value)]) }
      return i :: (← readFlowItems fuel (levels + 1) false)
    else if ← accept .flowSequenceEnd then return []
    else
      let item ← readNode fuel (levels + 1) false false
      return item :: (← readFlowItems fuel (levels + 1) false)

/-- The entries of a mapping between brackets; a node without a colon is a key without a value. -/
def readFlowEntries : Nat → Nat → Bool → ReadingM (List (Nat × Nat))
  | 0, _, _ => throw .malformed
  | fuel + 1, levels, first => do
    if ← accept .flowMappingEnd then return []
    if !first then expect .flowEntry
    if ← accept .key then
      let stops := [Token.flowEntry, .flowMappingEnd]
      let key ← readUnless fuel levels (.value :: stops) false false
      let value ← readFlowValue fuel levels stops
      return (key, value) :: (← readFlowEntries fuel levels false)
    else if ← accept .flowMappingEnd then return []
    else
      let key ← readNode fuel levels false false
      let value ← emptyNode
      return (key, value) :: (← readFlowEntries fuel levels false)

end

def commonHandles : List (String × String) :=
  [("!", "!"), ("!!", "tag:yaml.org,2002:")]

/-- Read directives: a version once, of the first generation, and each handle once. -/
def readDirectives : Nat → Bool → List (String × String) → ReadingM (List (String × String))
  | 0, _, _ => throw .malformed
  | fuel + 1, versioned, handles => do
    match ← peekToken with
    | .version major =>
      if versioned || major ≠ 1 then throw .malformed
      dropToken
      readDirectives fuel true handles
    | .handle name expansion =>
      if (handles.lookup name).isSome then throw .malformed
      dropToken
      readDirectives fuel versioned ((name, expansion) :: handles)
    | .otherDirective =>
      dropToken
      readDirectives fuel versioned handles
    | _ => return handles

def dropDocumentEnds : Nat → ReadingM Unit
  | 0 => return ()
  | fuel + 1 => do
    if ← accept .documentEnd then dropDocumentEnds fuel

/-- The start of a document: directives and the mark, which a first document without directives
need not have. The flag says that the mark was there. -/
def readDocumentStart (fuel : Nat) : ReadingM Bool := do
  let bare (t : Token) : Bool :=
    match t with
    | .version _ | .handle .. | .otherDirective | .documentStart => false
    | _ => true
  if bare (← peekToken) then
    modify fun r => { r with handles := commonHandles }
    return false
  else
    let handles ← readDirectives fuel false []
    expect .documentStart
    modify fun r => { r with handles := handles ++ commonHandles }
    return true

/-- The only document of a text, if there is one; the result is the place of its node. -/
def readDocument (fuel : Nat) : ReadingM (Option Nat) := do
  if ← isNext [.streamEnd] then return none
  let marked ← readDocumentStart fuel
  let next ← peekToken
  let isBlank :=
    match next with
    | .version _ | .handle .. | .otherDirective | .documentStart | .documentEnd | .streamEnd => true
    | _ => false
  let node ← if marked && isBlank then emptyNode else readNode fuel levelLimit true false
  dropDocumentEnds fuel
  expect .streamEnd
  return some node

/-- The nodes that a text spells, and the place of the outermost one if there is a document. -/
def compose (s : String) : Except YamlFault (Option Nat × Graph) := do
  let (tokens, fault) := tokens s
  let (root, r) ← (readDocument (4 * tokens.length + 8)).run { tokens, fault }
  return (root, r.graph)

end OptimalAssignment.Yaml
