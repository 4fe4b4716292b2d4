import OptimalAssignment.Yaml.Tag

/-!
Nodes and their places. A node is a scalar, a sequence or a mapping; its parts are named by their
places, so that one node may be a part of several others, and of itself.
-/
namespace OptimalAssignment.Yaml

/-- What a node holds: characters, the places of items, or the places of keys and values. -/
inductive Shape where
  | scalar (text : String)
  | sequence (items : List Nat)
  | mapping (entries : List (Nat × Nat))
deriving Repr, DecidableEq, Inhabited

structure Node where
  tag : Tag
  shape : Shape
deriving Repr, DecidableEq, Inhabited

structure Graph where
  nodes : Array Node := #[]
deriving Repr

namespace Graph

def size (g : Graph) : Nat :=
  g.nodes.size

def node (g : Graph) (i : Nat) : Node :=
  g.nodes.getD i ⟨.null, .scalar ""⟩

def tag (g : Graph) (i : Nat) : Tag :=
  (g.node i).tag

def shape (g : Graph) (i : Nat) : Shape :=
  (g.node i).shape

/-- The entries of a mapping; other nodes have none. -/
def entries (g : Graph) (i : Nat) : List (Nat × Nat) :=
  match g.shape i with
  | .mapping entries => entries
  | _ => []

def push (n : Node) (g : Graph) : Graph :=
  ⟨g.nodes.push n⟩

def replace (i : Nat) (n : Node) (g : Graph) : Graph :=
  ⟨g.nodes.setIfInBounds i n⟩

def reshape (i : Nat) (s : Shape) (g : Graph) : Graph :=
  g.replace i ⟨g.tag i, s⟩

def retag (i : Nat) (t : Tag) (g : Graph) : Graph :=
  g.replace i ⟨t, g.shape i⟩

@[simp] theorem size_push (n : Node) (g : Graph) : (g.push n).size = g.size + 1 := by
  simp [size, push]

@[simp] theorem size_replace (i : Nat) (n : Node) (g : Graph) : (g.replace i n).size = g.size := by
  simp [size, replace]

end Graph

end OptimalAssignment.Yaml
