import OptimalAssignment.Cost.Matrix
import OptimalAssignment.Matching.AlternatingPath
import OptimalAssignment.Solver.Phase

/-!
The working data of one run, and the snapshots that observers see. Entering a phase records it and
moves on to the next step number.
-/
namespace OptimalAssignment

/-- A copy of the working data as it was when a phase was entered. -/
structure Snapshot (α : Type) where
  step : Nat
  phase : Option Phase
  values : Grid α
  rows : List Bool
  cols : List Bool
  selected : List (Nat × Nat)
  prepared : List (Nat × Nat)
  preparedPath : List (Nat × Nat)
  selectedPath : List (Nat × Nat)
  /-- The value moved by the adjustment that was entered; zero in other phases. -/
  adjustment : α

namespace Snapshot

variable {α : Type}

def size (s : Snapshot α) : Nat :=
  s.values.length

def numSelected (s : Snapshot α) : Nat :=
  s.selected.length

end Snapshot

structure Work (α : Type) where
  matrix : CostMatrix α
  matching : Matching Nat
  coverage : Coverage
  path : Option (AlternatingPath Nat)
  phase : Option Phase
  step : Nat
  lastAdjustment : α

namespace Work

variable {α : Type}

def start [Zero α] (g : Grid α) : Work α where
  matrix := .ofGrid g
  matching := .empty Nat g.length
  coverage := .empty g.length
  path := none
  phase := none
  step := 0
  lastAdjustment := 0

def size (w : Work α) : Nat :=
  w.matrix.size

def snapshot [Zero α] (w : Work α) : Snapshot α where
  step := w.step
  phase := w.phase
  values := w.matrix.values
  rows := w.coverage.rows
  cols := w.coverage.cols
  selected := w.matching.selectedPairs
  prepared := w.matching.preparedPairs
  preparedPath := w.path.elim [] (·.prepared)
  selectedPath := w.path.elim [] (·.selected)
  adjustment := if w.phase = some .adjustPotentials then w.lastAdjustment else 0

def into (phase : Phase) (w : Work α) : Work α :=
  { w with phase := some phase }

/-- The data after the step that entered a phase. -/
def next (w : Work α) : Work α :=
  { w with step := w.step + 1 }

end Work

end OptimalAssignment
