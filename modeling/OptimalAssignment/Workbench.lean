import OptimalAssignment.Cost.Matrix
import OptimalAssignment.Matching.AlternatingPath
import OptimalAssignment.Matching.Greedy

/-!
The workbench: single operations of the solver, tried out one after the other on a matrix, a
matching, a coverage and a path. Lines are named by signed positions. An operation that fails leaves
behind what it had done before it failed.
-/
namespace OptimalAssignment

structure Workbench (α : Type) where
  matrix : Option (CostMatrix α)
  matching : Matching Int
  coverage : Coverage
  path : AlternatingPath Int := {}

inductive Task where
  | reduce
  | zeroMask
  | greedy
  | greedyMask (mask : Grid Bool)
  | select (row col : Int)
  | unselect (row col : Int)
  | prepare (row col : Int)
  | clearPrepared
  | rowHas (row : Int)
  | colHas (col : Int)
  | numSelected
  | selectedPairs
  | preparedPairs
  | coverRow (row : Int)
  | uncoverCol (col : Int)
  | coverSelected
  | setRows (flags : List Bool)
  | setCols (flags : List Bool)
  | isOptimal
  | numCoveredCols
  | uncovered
  | findZero
  | adjust
  | costOf (cols : List Int)
  | buildPath (row col : Int)
  | applyPath
  | setPath (prepared selected : List (Cell Int))
  | describe

inductive Answer (α : Type) where
  | nothing
  | cost (x : α)
  | count (n : Nat)
  | flag (b : Bool)
  | mask (g : Grid Bool)
  | pairs (cells : List (Nat × Int))
  | cell (found : Option (Nat × Nat))
  | texts (lines : List String)

inductive BenchFault where
  /-- There is no matrix on the workbench. -/
  | noMatrix
  | fault (f : Fault)
deriving Repr, DecidableEq

namespace Workbench

variable {α : Type}

def ofSize (n : Nat) : Workbench α :=
  { matrix := none, matching := .empty Int n, coverage := .empty n }

def ofGrid (g : Grid α) : Workbench α :=
  { matrix := some (.ofGrid g), matching := .empty Int g.length, coverage := .empty g.length }

def cellsText (cells : List (Int × Int)) : String :=
  "[" ++ String.intercalate ", " (cells.map fun (row, col) => s!"({row}, {col})") ++ "]"

def numbersText (ns : List Nat) : String :=
  "[" ++ String.intercalate ", " (ns.map toString) ++ "]"

def asCells (pairs : List (Nat × Int)) : List (Int × Int) :=
  pairs.map fun (row, col) => ((row : Int), col)

def describe (b : Workbench α) : List String :=
  ["MatchingState(selected=" ++ cellsText (asCells b.matching.selectedPairs)
      ++ ", prepared=" ++ cellsText (asCells b.matching.preparedPairs) ++ ")",
    "Coverage(rows=" ++ numbersText (Coverage.raised b.coverage.rows)
      ++ ", cols=" ++ numbersText (Coverage.raised b.coverage.cols) ++ ")",
    "AlternatingPath(prepared=" ++ cellsText b.path.prepared
      ++ ", selected=" ++ cellsText b.path.selected ++ ")",
    b.matrix.elim "None" fun m => s!"CostMatrix(size={m.size})"]

/-- The outcome of an operation: the workbench afterwards, and the answer or the fault. -/
abbrev Outcome (α : Type) := Workbench α × Except BenchFault (Answer α)

def answer (b : Workbench α) (a : Answer α) : Outcome α :=
  (b, .ok a)

/-- An answer that does not change the workbench. -/
def query {β : Type} (b : Workbench α) (result : Except Fault β) (a : β → Answer α) : Outcome α :=
  match result with
  | .ok x => (b, .ok (a x))
  | .error f => (b, .error (.fault f))

def change {β : Type} (b : Workbench α) (result : Except Fault β) (put : β → Workbench α) :
    Outcome α :=
  match result with
  | .ok new => (put new, .ok .nothing)
  | .error f => (b, .error (.fault f))

/-- A change that may get stuck halfway. -/
def halfway (b : Workbench α) (matching : Matching Int) : Option Fault → Outcome α
  | none => ({ b with matching }, .ok .nothing)
  | some f => ({ b with matching }, .error (.fault f))

def onMatrix (b : Workbench α) (act : CostMatrix α → Outcome α) : Outcome α :=
  match b.matrix with
  | some m => act m
  | none => (b, .error .noMatrix)

def greedy (b : Workbench α) (mask : Grid Bool) : Outcome α :=
  let outcome := Greedy.run mask b.matching
  b.halfway outcome.matching outcome.fault

variable [Scalar α]

def perform (b : Workbench α) : Task → Outcome α
  | .reduce => b.onMatrix fun m =>
    let (matrix, offset) := m.reduce
    ({ b with matrix := some matrix }, .ok (.cost offset))
  | .zeroMask => b.onMatrix fun m => b.answer (.mask m.zeroMask)
  | .greedy => b.onMatrix fun m => b.greedy m.zeroMask
  | .greedyMask mask => b.greedy mask
  | .select row col => b.change (b.matching.select row col) ({ b with matching := · })
  | .unselect row col => b.change (b.matching.unselect row col) ({ b with matching := · })
  | .prepare row col => b.change (b.matching.prepare row col) ({ b with matching := · })
  | .clearPrepared => answer { b with matching := b.matching.clearPrepared } .nothing
  | .rowHas row => b.query (b.matching.selectedCol row) (.flag ·.isSome)
  | .colHas col => b.query (b.matching.selectedRow col) (.flag ·.isSome)
  | .numSelected => b.answer (.count b.matching.numSelected)
  | .selectedPairs => b.answer (.pairs b.matching.selectedPairs)
  | .preparedPairs => b.answer (.pairs b.matching.preparedPairs)
  | .coverRow row => b.change (b.coverage.coverRow row) ({ b with coverage := · })
  | .uncoverCol col => b.change (b.coverage.uncoverCol col) ({ b with coverage := · })
  | .coverSelected => b.change (b.coverage.coverSelected b.matching) ({ b with coverage := · })
  | .setRows flags => answer { b with coverage := { b.coverage with rows := flags } } .nothing
  | .setCols flags => answer { b with coverage := { b.coverage with cols := flags } } .nothing
  | .isOptimal => b.answer (.flag b.coverage.isOptimal)
  | .numCoveredCols => b.answer (.count b.coverage.numCoveredCols)
  | .uncovered => b.answer (.mask b.coverage.uncovered)
  | .findZero => b.onMatrix fun m => b.query (m.findUncoveredZero b.coverage) .cell
  | .adjust => b.onMatrix fun m =>
    match m.adjust b.coverage with
    | .ok (matrix, least) => ({ b with matrix := some matrix }, .ok (.cost least))
    | .error f => (b, .error (.fault f))
  | .costOf cols => b.onMatrix fun m => b.query (m.costOf cols) .cost
  | .buildPath row col =>
    match AlternatingPath.build b.matching row col with
    | .ok path => ({ b with path }, .ok (.count path.length))
    | .error f => (b, .error (.fault f))
  | .applyPath =>
    let (matching, stuck) := b.path.flip b.matching
    b.halfway matching stuck
  | .setPath prepared selected => answer { b with path := ⟨prepared, selected⟩ } .nothing
  | .describe => b.answer (.texts b.describe)

/-- Perform operations one after the other; each answer with the workbench after it. -/
def performAll (b : Workbench α) : List Task → List (Outcome α)
  | [] => []
  | task :: tasks =>
    let outcome := b.perform task
    outcome :: outcome.1.performAll tasks

end Workbench

end OptimalAssignment
