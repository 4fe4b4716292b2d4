import OptimalAssignment.Cost.Grid
import OptimalAssignment.Cost.Lanes
import OptimalAssignment.Cost.Table
import OptimalAssignment.Coverage

/-!
The working costs of one run. The given grid never changes; the working values are lowered by row
and column minima, and by adjustments that move the least uncovered value out of the uncovered
cells and into the doubly covered ones.
-/
namespace OptimalAssignment

/-- The costs as they were given, and the values that the solver works on. -/
structure CostMatrix (α : Type) where
  given : Grid α
  values : Grid α

namespace CostMatrix

variable {α : Type}

def ofGrid (g : Grid α) : CostMatrix α :=
  ⟨g, g⟩

def size (m : CostMatrix α) : Nat :=
  m.values.length

variable [Scalar α]

def lowerRows (g : Grid α) : Grid α :=
  List.map (fun row =>
    let least := Scalar.least row
    row.map (· - least)) g

def lowerCols (g : Grid α) : Grid α :=
  let minima := Grid.colMinima g
  List.map (fun row => List.zipWith (· - ·) row minima) g

/-- Lower the rows, then the columns, of the working values; the second result is the sum of all
that was taken away. -/
def reduce (m : CostMatrix α) : CostMatrix α × α :=
  let lowered := lowerRows m.values
  ({ m with values := lowerCols lowered },
    LaneSum.total (Grid.rowMinima m.values) + LaneSum.total (Grid.colMinima lowered))

def zeroMask (m : CostMatrix α) : Grid Bool :=
  m.values.map Scalar.isZero

/-- The least value of the uncovered cells, dealt out in row-major order. -/
def leastUncovered (c : Coverage) (g : Grid α) : α :=
  LaneMinimum.least
    ((Grid.mapLabelled (fun row col x => if row || col then none else some x) c.rows c.cols
      g).flatten.filterMap id)

/-- A grid with a value taken from its uncovered cells and given to its doubly covered ones. -/
def shift (c : Coverage) (least : α) (g : Grid α) : Grid α :=
  Grid.mapLabelled
    (fun row col x => if row && col then x + least else if row || col then x else x - least)
    c.rows c.cols g

/-- Whether there is one flag for each row and one for each column. -/
def fits (m : CostMatrix α) (c : Coverage) : Bool :=
  c.rows.length == m.size && m.values.all (·.length == c.cols.length)

/-- Shift the working values by the least uncovered one; the second result is that value. -/
def adjust (m : CostMatrix α) (c : Coverage) : Except Fault (CostMatrix α × α) :=
  if c.rows.all id || c.cols.all id then .error .nothingUncovered
  else if m.fits c then
    let least := leastUncovered c m.values
    .ok ({ m with values := shift c least m.values }, least)
  else .error .outOfRange

/-- The number of lines that two axes share; an axis with one line stands for any number. -/
def common? (a b : Nat) : Option Nat :=
  if a = b ∨ b = 1 then some a else if a = 1 then some b else none

/-- A single entry repeated for every line; any other list as it is. -/
def stretch {β : Type} (n : Nat) : List β → List β
  | [x] => List.replicate n x
  | xs => xs

/-- The first zero in an uncovered row and an uncovered column, in row-major order. -/
def findUncoveredZero (m : CostMatrix α) (c : Coverage) : Except Fault (Option (Nat × Nat)) :=
  match common? c.rows.length m.size, common? c.cols.length m.size with
  | some rows, some cols =>
    let zeros := stretch rows (List.map (stretch cols) m.zeroMask)
    .ok (Grid.firstWhere? id
      (Grid.mapLabelled (fun row col zero => zero && !row && !col)
        (stretch rows c.rows) (stretch cols c.cols) zeros))
  | _, _ => .error .shapesDisagree

/-- The given costs of the cells named by one column per row. A single column stands for every
row, and a single row for every column. -/
def chosenCosts {P : Type} [Position P] (m : CostMatrix α) (cols : List P) :
    Except Fault (List α) :=
  match common? cols.length m.size with
  | none => .error .outOfRange
  | some n =>
    (List.zip (stretch n m.given) (stretch n cols)).mapM fun (row, col) =>
      match Position.get? row col with
      | some cost => .ok cost
      | none => .error .outOfRange

/-- The total given cost of one column per row. All columns have to fit a machine word. -/
def costOf {P : Type} [Position P] (m : CostMatrix α) (cols : List P) : Except Fault α :=
  if cols.all Position.isWord then (m.chosenCosts cols).map LaneSum.total
  else .error .beyondWord

end CostMatrix

/-- The reduced values of a table of finite costs, as an array. -/
def Table.reduced {α : Type} [Scalar α] (t : Table α) : Except Rejection (Table α) := do
  let g ← t.accept true
  let values := (CostMatrix.ofGrid g).reduce.1.values
  return .array [values.length, values.length] values.flatten

/-- The total cost of one column per row on a grid, added from left to right. -/
def Grid.totalCost {α P : Type} [Scalar α] [Position P] (g : Grid α) (cols : List P) :
    Except Fault α :=
  let cost (i : Nat) (col : P) : Except Fault α :=
    match g[i]? with
    | none => .error .outOfRange
    | some row =>
      match Position.get? row col with
      | some cost => .ok cost
      | none => .error (Position.strayFault col)
  (cols.zipIdx.mapM fun (col, i) => cost i col).map (LaneSum.plainFrom 0)

end OptimalAssignment
