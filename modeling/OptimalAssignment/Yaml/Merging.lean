import OptimalAssignment.Yaml.Graph

/-!
Merged mappings. An entry whose key is the mark of merging is taken out, and the entries of the
mapping behind it, or of the mappings in the sequence behind it, are put in front of the others. A
mapping that is merged has its own merged entries taken over first; this changes it for good.
-/
namespace OptimalAssignment.Yaml

abbrev GraphM := StateT Graph (Except YamlFault)

/-- The position of the next entry whose key is a mark, from a position on. -/
def nextMark? (g : Graph) (i position : Nat) : Option Nat :=
  (((g.entries i).drop position).findIdx? fun e =>
    g.tag e.1 == .merge || g.tag e.1 == .value).map (position + ·)

/-- Take over the merged entries of the mapping at a place, from a position on. The results are the
entries to be put in front. -/
def mergeFrom (flatten : Nat → GraphM Unit) (i : Nat) : Nat → Nat → GraphM (List (Nat × Nat))
  | 0, _ => throw .tooDeep
  | fuel + 1, position => do
    let g ← get
    match nextMark? g i position with
    | none => return []
    | some position =>
      let (key, value) := ((g.entries i)[position]?).getD (0, 0)
      if g.tag key == .value then
        set (g.retag key .text)
        mergeFrom flatten i fuel position
      else
        set (g.reshape i (.mapping ((g.entries i).eraseIdx position)))
        let front ←
          match g.shape value with
          | .mapping _ =>
            flatten value
            pure ((← get).entries value)
          | .sequence items =>
            let parts ← items.mapM fun item => do
              match (← get).shape item with
              | .mapping _ =>
                flatten item
                return (← get).entries item
              | _ => throw .malformed
            pure parts.reverse.flatten
          | .scalar _ => throw .malformed
        return front ++ (← mergeFrom flatten i fuel position)

def entryCount (g : Graph) : Nat :=
  (g.nodes.toList.map fun n =>
    match n.shape with
    | .mapping entries => entries.length
    | _ => 0).foldl (· + ·) 0

/-- Take over the merged entries of the mapping at a place, with at most so many marks to be met and
so many mappings merged into one another. The mark of a value is a text as a key. -/
def flattenWithin (marks : Nat) : Nat → Nat → GraphM Unit
  | 0, _ => throw .tooDeep
  | fuel + 1, i => do
    let front ← mergeFrom (flattenWithin marks fuel) i marks 0
    let g ← get
    set (g.reshape i (.mapping (front ++ g.entries i)))

/-- Take over the merged entries of the mapping at a place. Every merged entry is taken out before
what it names is looked at, so that also a mapping within itself comes to an end. -/
def flatten (i : Nat) : GraphM Unit := do
  let marks := entryCount (← get) + 1
  flattenWithin marks marks i

end OptimalAssignment.Yaml
