import OptimalAssignment.Solver.Work
import OptimalAssignment.Matching.Greedy

/-!
Runs of the solver. A run is laid out in legs: a leg enters phases one after the other, and may stop
at a fault. The search for a perfect matching repeats one pass until every column is covered: a pass
finds an uncovered zero and either moves a cover from a column to a row and adjusts, or flips an
alternating path, which adds one pair to the matching.
-/
namespace OptimalAssignment

/-- A matching of least total cost, with the account of how it was found. -/
structure Assignment (α : Type) where
  /-- The column of each row. -/
  columns : List Nat
  cost : α
  /-- What the reduction took away. -/
  offset : α
  /-- The number of passes. -/
  iterations : Nat
  /-- The number of paths flipped. -/
  augmentations : Nat
deriving Repr

/-- A stretch of a run: the data at each phase entered, the data at its end, and its count of passes
and of paths flipped; the fault, if one stopped it. -/
structure Leg (α : Type) where
  entries : List (Work α) := []
  work : Work α
  passes : Nat := 0
  flips : Nat := 0
  fault : Option Fault := none

namespace Leg

variable {α : Type}

/-- The leg that goes nowhere. -/
def stay (work : Work α) : Leg α :=
  { work }

def stop (work : Work α) (fault : Fault) : Leg α :=
  { work, fault := some fault }

def enter (phase : Phase) (work : Work α) : Leg α :=
  { entries := [work.into phase], work := (work.into phase).next }

/-- One leg after the other; a leg that stopped is the last one. -/
def andThen (leg : Leg α) (rest : Work α → Leg α) : Leg α :=
  match leg.fault with
  | some _ => leg
  | none =>
    let later := rest leg.work
    { entries := leg.entries ++ later.entries
      work := later.work
      passes := leg.passes + later.passes
      flips := leg.flips + later.flips
      fault := later.fault }

/-- Go on with the result of an operation, or stop with its fault. -/
def orStop {β : Type} (work : Work α) (result : Except Fault β) (rest : β → Leg α) : Leg α :=
  match result with
  | .ok b => rest b
  | .error fault => stop work fault

def countPass (leg : Leg α) : Leg α :=
  { leg with passes := leg.passes + 1 }

def countFlip (leg : Leg α) : Leg α :=
  { leg with flips := leg.flips + 1 }

end Leg

/-- How many passes a run may take, and the fault of a run that needs more. -/
structure Ceiling where
  budget : Nat
  fault : Fault
deriving Repr

/-- The ceiling of `2 n (n + 1)` passes. -/
def Ceiling.standard (n : Nat) : Ceiling where
  budget := 2 * n * (n + 1)
  fault := .ceilingReached (toString (2 * n * (n + 1)))

namespace Work

variable {α : Type} [Scalar α]

def adjust (w : Work α) : Leg α :=
  .orStop w (w.matrix.adjust w.coverage) fun (matrix, least) =>
    .enter .adjustPotentials { w with matrix, lastAdjustment := least }

/-- Move the cover from the column selected in a row to the row, then adjust. -/
def cover (row col : Nat) (w : Work α) : Leg α :=
  .orStop w (w.coverage.coverRow row) fun covered =>
    .orStop { w with coverage := covered } (covered.uncoverCol col) fun coverage =>
      (Leg.enter .rowHasSelection { w with coverage }).andThen adjust

/-- Flip the path at hand and cover the selected columns. -/
def flip (path : AlternatingPath Nat) (w : Work α) : Leg α :=
  match path.flip w.matching with
  | (matching, some fault) => .stop { w with matching } fault
  | (matching, none) =>
    .orStop { w with matching } (w.coverage.coverSelected matching) fun coverage =>
      (Leg.enter .augment { w with matching, coverage, path := none }).countFlip

/-- Build the path from a prepared zero in a row without a selected one, then flip it. -/
def augment (row col : Nat) (w : Work α) : Leg α :=
  .orStop w (AlternatingPath.build w.matching row col) fun path =>
    (Leg.enter .buildPath { w with path := some path }).andThen (flip path)

/-- Prepare an uncovered zero, then cover its row or augment from it. -/
def search (row col : Nat) (w : Work α) : Leg α :=
  .orStop w (w.matching.prepare row col) fun matching =>
    (Leg.enter .search { w with matching }).andThen fun w =>
      .orStop w (w.matching.selectedCol row) fun
        | some selected => cover row selected w
        | none => augment row col w

/-- One pass: search from the first uncovered zero, or adjust if there is none. -/
def pass (w : Work α) : Leg α :=
  .orStop w (w.matrix.findUncoveredZero w.coverage) fun
    | none => adjust w
    | some (row, col) => search row col w

/-- Repeat passes until every column is covered or the budget is spent. -/
def repeatPasses (exhausted : Fault) : Nat → Work α → Leg α
  | 0, w => if w.coverage.isOptimal then .stay w else .stop w exhausted
  | budget + 1, w =>
    if w.coverage.isOptimal then .stay w
    else ((pass w).countPass).andThen (repeatPasses exhausted budget)

def select (outcome : Greedy.Outcome Nat) (w : Work α) : Leg α :=
  let w := { w with matching := outcome.matching }
  match outcome.fault with
  | some fault => .stop w fault
  | none =>
    .orStop w (w.coverage.coverSelected w.matching) fun coverage =>
      .enter .select { w with coverage }

end Work

/-- A whole run: the data at each phase entered, the cells chosen by the initial selection, the data
at the end, and the assignment or the fault. -/
structure Run (α : Type) where
  entries : List (Work α)
  chosen : List (Nat × Nat)
  work : Work α
  result : Except Fault (Assignment α)

namespace Run

variable {α : Type} [Scalar α]

/-- The last leg: measure the matching on the given costs and enter the end. -/
def finish (offset : α) (leg : Leg α) : Leg α × Except Fault (Assignment α) :=
  match leg.fault with
  | some fault => (leg, .error fault)
  | none =>
    let columns := leg.work.matching.colOfRow.filterMap id
    match leg.work.matrix.costOf columns with
    | .error fault => ({ leg with fault := some fault }, .error fault)
    | .ok cost =>
      (leg.andThen (Leg.enter .done),
        .ok ⟨columns, cost, offset, leg.passes, leg.flips⟩)

def solve (ceiling : Ceiling) (g : Grid α) : Run α :=
  let w := Work.start g
  let (matrix, offset) := w.matrix.reduce
  let outcome := Greedy.run matrix.zeroMask w.matching
  let leg := ((Leg.enter .reduce { w with matrix }).andThen (Work.select outcome)).andThen
    (Work.repeatPasses ceiling.fault ceiling.budget)
  let (leg, result) := finish offset leg
  ⟨leg.entries, outcome.chosen, leg.work, result⟩

def solveStandard (g : Grid α) : Run α :=
  solve (.standard g.length) g

def snapshots (r : Run α) : List (Snapshot α) :=
  r.entries.map Work.snapshot

end Run

end OptimalAssignment
