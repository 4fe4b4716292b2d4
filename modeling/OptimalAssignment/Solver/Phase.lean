/-!
The phases of a run. Reduction and selection come first; then search, either followed by a cover and
an adjustment or by a path and its flip, until the run is done.
-/
namespace OptimalAssignment

inductive Phase where
  | reduce
  | select
  | search
  | rowHasSelection
  | buildPath
  | augment
  | adjustPotentials
  | done
deriving Repr, DecidableEq, Inhabited

namespace Phase

def all : List Phase :=
  [reduce, select, search, rowHasSelection, buildPath, augment, adjustPotentials, done]

def word : Phase → String
  | reduce => "reduce"
  | select => "select"
  | search => "search"
  | rowHasSelection => "row_has_selection"
  | buildPath => "build_path"
  | augment => "augment"
  | adjustPotentials => "adjust_potentials"
  | done => "done"

def label (p : Phase) : String :=
  p.word.map Char.toUpper

def ofWord? (s : String) : Option Phase :=
  all.find? (·.word == s)

def ofLabel? (s : String) : Option Phase :=
  all.find? (·.label == s)

end Phase

end OptimalAssignment
