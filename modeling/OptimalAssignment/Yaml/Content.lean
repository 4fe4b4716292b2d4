import OptimalAssignment.Sharing
import OptimalAssignment.Yaml.Composition
import OptimalAssignment.Yaml.Merging

/-!
What nodes stand for. Scalars are read by their tags, each once. Collections are opened in the order
in which they were met, level by level, and the first fault on the way is the one that counts. The
value of a node is unfolded afterwards; a collection within itself is not told again.
-/
namespace OptimalAssignment.Yaml

/-- What a node comes to: an atom, or a collection of parts that are named by their places. -/
inductive Made where
  | atom (a : Atom)
  | list (items : List Nat)
  | pairs (entries : List (Nat × Nat))
  | set (entries : List (Nat × Nat))
  | table (entries : List (Nat × Nat))
deriving Repr, Inhabited

/-- The state of reading nodes: the nodes, what they come to as far as that is known, and the places
of the collections that wait to be opened. -/
structure Making where
  graph : Graph
  made : Array (Option Made)
  waiting : List Nat := []

abbrev MakingM := StateT Making (Except YamlFault)

/-- The text that stands for a node: that of a scalar, or in a mapping the one behind the mark of a
value. -/
def textOf (g : Graph) : Nat → Nat → Except YamlFault String
  | 0, _ => .error .tooDeep
  | fuel + 1, i =>
    match g.shape i with
    | .scalar s => .ok s
    | .sequence _ => .error .malformed
    | .mapping entries =>
      match entries.find? fun (key, _) => g.tag key == .value with
      | some (_, v) => textOf g fuel v
      | none => .error .malformed

/-- The atom that a text stands for under a tag; there is none under the tags of collections. -/
def atomOf (t : Tag) (s : String) : Except YamlFault Atom :=
  match t with
  | .null => .ok .null
  | .truth => (truthOf s).map .truth
  | .integer => (integerOf s).map .integer
  | .real => realOf s
  | .moment => (momentOf s).map .moment
  | .text => .ok (.text s)
  | .bytes => (bytesOf s).map .bytes
  | .sequence | .mapping | .set | .pairs | .merge | .value | .unknown => .error .malformed

/-- The collection that a tag announces, before it is opened. -/
def closed? : Tag → Option Made
  | .sequence => some (.list [])
  | .mapping => some (.table [])
  | .set => some (.set [])
  | .pairs => some (.pairs [])
  | _ => none

/-- The atom that a node stands for. The text of a moment has to stand in the node itself. -/
def nodeAtom (g : Graph) (i : Nat) : Except YamlFault Atom := do
  let t := g.tag i
  let s ← textOf g (g.size + 1) i
  match t, g.shape i with
  | .moment, .mapping _ => throw .noText
  | _, _ => atomOf t s

/-- Note what a node comes to. -/
def note (i : Nat) (m : Made) : MakingM Unit :=
  modify fun s => { s with made := s.made.setIfInBounds i (some m) }

/-- Look at a node from outside, unless that has been done: a scalar is read, a collection waits to
be opened. -/
def visit (i : Nat) : MakingM Unit := do
  let s ← get
  if (s.made.getD i none).isSome then return
  match closed? (s.graph.tag i) with
  | some m =>
    note i m
    modify fun s => { s with waiting := s.waiting ++ [i] }
  | none =>
    if standsForNothing (s.graph.tag i) then throw .malformed
    note i (.atom (← nodeAtom s.graph i))
where
  /-- Whether nodes with a tag stand for nothing. -/
  standsForNothing (t : Tag) : Bool :=
    t == .merge || t == .value || t == .unknown

/-- Look at a node that is a key; only an atom can be one. -/
def visitKey (i : Nat) : MakingM Unit := do
  visit i
  match (← get).made.getD i none with
  | some (.atom _) => return
  | _ => throw .malformed

/-- Look at the keys and values of a mapping, with what is merged into it. -/
def openMapping (i : Nat) : MakingM (List (Nat × Nat)) := do
  match (← get).graph.shape i with
  | .mapping _ =>
    let (_, graph) ← (flatten i).run (← get).graph
    modify fun s => { s with graph }
    let entries := graph.entries i
    for (key, v) in entries do
      visitKey key
      visit v
    return entries
  | _ => throw .malformed

/-- Look at the keys and values of a sequence of mappings with one entry each. -/
def openPairs (i : Nat) : MakingM (List (Nat × Nat)) := do
  match (← get).graph.shape i with
  | .sequence items =>
    items.mapM fun item => do
      match (← get).graph.shape item with
      | .mapping [(key, v)] =>
        visit key
        visit v
        return (key, v)
      | _ => throw .malformed
  | _ => throw .malformed

/-- Open a collection: its parts are looked at in order. Its tag has to fit what it holds. -/
def openNode (i : Nat) : MakingM Unit := do
  match (← get).graph.tag i, (← get).graph.shape i with
  | .sequence, .sequence items =>
    items.forM visit
    note i (.list items)
  | .mapping, _ => note i (.table (← openMapping i))
  | .set, _ => note i (.set (← openMapping i))
  | .pairs, _ => note i (.pairs (← openPairs i))
  | _, _ => throw .malformed

/-- Open the collections that wait, and those that they hold. -/
def openAll : Nat → MakingM Unit
  | 0 => return
  | fuel + 1 => do
    match (← get).waiting with
    | [] => return
    | i :: rest =>
      modify fun s => { s with waiting := rest }
      openNode i
      openAll fuel

/-- What the nodes come to that are reached from a place. -/
def makeFrom (g : Graph) (root : Nat) : Except YamlFault (Array (Option Made)) := do
  let start : Making := { graph := g, made := Array.replicate g.size none }
  let (_, s) ← (do visit root; openAll (g.size + 1) : MakingM Unit).run start
  return s.made

/-! ### Unfolding -/

abbrev PlacedKey := Nat × Atom

/-- Give a key a value: in its place if it is there, at the end otherwise. The key of one node is
the same as itself, whatever it is. -/
def putPlaced {β : Type} (k : PlacedKey) (v : β) : List (PlacedKey × β) → List (PlacedKey × β)
  | [] => [(k, v)]
  | (l, w) :: rest =>
    if l.1 == k.1 || l.2.same k.2 then (l, v) :: rest else (l, w) :: putPlaced k v rest

def gather {β : Type} (entries : List (PlacedKey × β)) : List (PlacedKey × β) :=
  entries.foldl (fun es (k, v) => putPlaced k v es) []

abbrev Makings := Array (Option Made)

namespace Makings

def find (m : Makings) (i : Nat) : Made :=
  (m.getD i none).getD (.atom .null)

def key (m : Makings) (i : Nat) : Atom :=
  match m.find i with
  | .atom a => a
  | _ => .null

/-- The keys and the places of the values of a table, each key once. -/
def entriesOf (m : Makings) (entries : List (Nat × Nat)) : List (PlacedKey × Nat) :=
  gather (entries.map fun (k, v) => ((k, m.key k), v))

/-- The value of the node at a place within the collections at some places. -/
def value (m : Makings) : Nat → List Nat → Nat → Value
  | 0, _, _ => .loop
  | fuel + 1, around, i =>
    if around.contains i then .loop
    else
      let part := value m fuel (i :: around)
      match m.find i with
      | .atom a => .ofKey a
      | .list items => .list (items.map part)
      | .pairs entries => .list (entries.map fun (k, v) => .pair (part k) (part v))
      | .set entries => .set ((m.entriesOf entries).map (·.1.2))
      | .table entries => .table ((m.entriesOf entries).map fun ((_, a), v) => (a, part v))

/-- Whether what a node comes to can be told apart from an equal thing: a moment or a collection. -/
def isThing (m : Makings) (i : Nat) : Bool :=
  match m.find i with
  | .atom (.moment _) => true
  | .atom _ => false
  | _ => true

/-- The places below the node at a place, with the nodes of the things that they hold. -/
def things (m : Makings) : Nat → List Nat → Nat → Sharing
  | 0, _, _ => []
  | fuel + 1, around, i =>
    if around.contains i then []
    else
      let part (steps : Place) (j : Nat) : Sharing :=
        Sharing.under steps (things m fuel (i :: around) j)
      let own : Sharing := if m.isThing i then [([], i)] else []
      own ++
        match m.find i with
        | .atom _ => []
        | .list items => items.zipIdx.flatMap fun (j, n) => part [.item n] j
        | .pairs entries => entries.zipIdx.flatMap fun ((k, v), n) =>
            part [.item n, .item 0] k ++ part [.item n, .item 1] v
        | .set entries => (m.entriesOf entries).flatMap fun ((k, a), _) => part [.key a] k
        | .table entries => (m.entriesOf entries).flatMap fun ((k, a), v) =>
            part [.key a] k ++ part [.entry a] v

end Makings

/-- The value that a text spells and what is shared within it; a text without a document spells
nothing. -/
def readShared (s : String) : Except YamlFault (Value × Sharing) := do
  let (root, graph) ← compose s
  match root with
  | none => return (.null, [])
  | some root =>
    let made : Makings ← makeFrom graph root
    return (made.value (graph.size + 1) [] root, made.things (graph.size + 1) [] root)

/-- The value that a text spells; a text without a document spells nothing. -/
def read (s : String) : Except YamlFault Value := do
  let (root, graph) ← compose s
  match root with
  | none => return .null
  | some root =>
    let made : Makings ← makeFrom graph root
    return made.value (graph.size + 1) [] root

end OptimalAssignment.Yaml
