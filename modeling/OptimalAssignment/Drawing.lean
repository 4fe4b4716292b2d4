import OptimalAssignment.Cost.Table
import OptimalAssignment.Solver.Work

/-!
Drawings of snapshots. The values stand in a grid; selected zeros are green and prepared zeros blue,
the cells of the alternating path are framed in magenta, covered rows and columns are struck through
in red. A drawing is the list of its strokes from bottom to top. All divisions round down.
-/
namespace OptimalAssignment

structure Color where
  red : Nat
  green : Nat
  blue : Nat
deriving Repr, DecidableEq

namespace Color

/-- The colour of lines and texts. -/
def ink : Color := ⟨0, 0, 0⟩

/-- The colour of covers. -/
def strike : Color := ⟨255, 0, 0⟩

/-- The colour of selected zeros. -/
def chosen : Color := ⟨0, 255, 0⟩

/-- The colour of prepared zeros. -/
def candidate : Color := ⟨0, 0, 255⟩

/-- The colour of alternating paths. -/
def path : Color := ⟨255, 0, 255⟩

end Color

/-- A point by its distances from the left and from the top. -/
structure Point where
  left : Int
  top : Int
deriving Repr, DecidableEq

inductive Stroke where
  | rectangle (corner opposite : Point) (fill outline : Option Color) (width : Int)
  | line (start stop : Point) (color : Color) (width : Int)
  | text (corner : Point) (content : String) (color : Color) (font : String)
deriving Repr, DecidableEq

inductive DrawingFault where
  /-- The side of the drawing would be negative. -/
  | negativeSide
  /-- The side of a cell is not a whole number. -/
  | sideNotWhole
  /-- The side of the drawing is beyond all sides that can be told. -/
  | sideOutOfReach
  /-- There is no room for so large a drawing. -/
  | noRoom
  /-- A row has fewer values than there are rows. -/
  | valueMissing
  /-- What stands in a cell, or in place of a row, is not fit to be drawn. -/
  | valueNotNumber
  /-- A drawing without any point cannot be kept. -/
  | nothingToKeep
deriving Repr, DecidableEq

def DrawingFault.message : DrawingFault → String
  | negativeSide => "Width and height must be >= 0"
  | _ => ""

/-- What a drawing shows: a grid, cells marked in three ways, and covered lines. A marked cell may
lie beyond the grid. -/
structure Scene (α : Type) where
  values : Grid α
  selected : List (Int × Int)
  prepared : List (Int × Int)
  path : List (Int × Int)
  rows : List Bool
  cols : List Bool
deriving Repr

def Scene.ofSnapshot {α : Type} (s : Snapshot α) : Scene α :=
  let cells (spots : List (Nat × Nat)) : List (Int × Int) :=
    spots.map fun (i, j) => (Int.ofNat i, Int.ofNat j)
  ⟨s.values, cells s.selected, cells s.prepared, cells (s.preparedPath ++ s.selectedPath), s.rows,
    s.cols⟩

/-- A drawing: its side, the fonts asked for with their sizes, and its strokes. -/
structure Drawing where
  side : Nat
  probes : List (String × Int)
  strokes : List Stroke
deriving Repr, DecidableEq

namespace Drawing

variable {α : Type} [Legible α]

def margin (cell : Int) : Int :=
  Int.fdiv cell 4

/-- The largest side for which there may be room: a line takes four bytes for each point. -/
def sideLimit : Nat :=
  Nat.pow 2 29 - 2

def side? (size : Nat) (cell : Int) : Except DrawingFault Nat :=
  let side := size * cell + 2 * margin cell
  if side < 0 then .error .negativeSide
  else if side ≥ Int.pow 2 31 then .error .sideOutOfReach
  else if side > sideLimit then .error .noRoom
  else .ok side.toNat

/-- The fonts that are asked for, in order. -/
def fontNames : List String :=
  ["arial.ttf", "/usr/share/fonts/truetype/dejavu/DejaVuSans.ttf"]

/-- Ask for one font after the other until one is at hand: the fonts asked for, and the font found;
a plain one if none is at hand. -/
def chooseFont (atHand : List String) (size : Int) : List String → List (String × Int) × String
  | [] => ([], "default")
  | name :: names =>
    if atHand.contains name then ([(name, size)], name ++ "@" ++ toString size)
    else
      let (probes, font) := chooseFont atHand size names
      ((name, size) :: probes, font)

/-- The width and the height of a text: seven for each character, and eleven. -/
def textExtent (s : String) : Int × Int :=
  (7 * s.length, 11)

def cellCorner (cell : Int) (spot : Int × Int) : Point :=
  ⟨margin cell + spot.2 * cell, margin cell + spot.1 * cell⟩

def cellBox (cell : Int) (fill outline : Option Color) (width : Int) (spot : Int × Int) : Stroke :=
  let corner := cellCorner cell spot
  .rectangle corner ⟨corner.left + cell, corner.top + cell⟩ fill outline width

/-- A line across the grid at a given height. -/
def across (cell : Int) (side : Nat) (height : Int) (color : Color) (width : Int) : Stroke :=
  .line ⟨margin cell, height⟩ ⟨side - margin cell, height⟩ color width

/-- A line down the grid at a given distance from the left. -/
def down (cell : Int) (side : Nat) (left : Int) (color : Color) (width : Int) : Stroke :=
  .line ⟨left, margin cell⟩ ⟨left, side - margin cell⟩ color width

/-- The lines of the grid, across and down in turn. -/
def gridLines (cell : Int) (side size : Nat) : List Stroke :=
  (List.range (size + 1)).flatMap fun (k : Nat) =>
    let offset := margin cell + k * cell
    [across cell side offset .ink 1, down cell side offset .ink 1]

/-- A value in the middle of its cell. -/
def valueText (cell : Int) (font : String) (spot : Int × Int) (x : α) : Stroke :=
  let corner := cellCorner cell spot
  let content := Legible.brief x
  let (width, height) := textExtent content
  .text ⟨Int.fdiv (2 * corner.left + cell - width) 2, Int.fdiv (2 * corner.top + cell - height) 2⟩
    content .ink font

def valueTexts (cell : Int) (font : String) (size : Nat) (g : Grid α) :
    Except DrawingFault (List Stroke) := do
  let rows ← (g.take size).zipIdx.mapM fun (row, i) =>
    if row.length < size then Except.error DrawingFault.valueMissing
    else .ok ((row.take size).zipIdx.map fun (x, j) => valueText cell font (i, j) x)
  return rows.flatten

/-- The lines that strike covered rows and columns through. -/
def coverLines (cell : Int) (side : Nat) (rows cols : List Bool) : List Stroke :=
  let width := max (Int.fdiv cell 10) 2
  let middle (i : Nat) : Int := margin cell + i * cell + Int.fdiv cell 2
  (rows.zipIdx.filterMap fun (covered, i) =>
      if covered then some (across cell side (middle i) .strike width) else none)
    ++ cols.zipIdx.filterMap fun (covered, i) =>
      if covered then some (down cell side (middle i) .strike width) else none

/-- The drawing of a scene with cells of a given side, when certain fonts are at hand. -/
def ofScene (s : Scene α) (cell : Int) (atHand : List String) : Except DrawingFault Drawing := do
  let size := s.values.length
  let side ← side? size cell
  let (probes, font) := chooseFont atHand (max (Int.fdiv cell 3) 8) fontNames
  let texts ← valueTexts cell font size s.values
  let strokes :=
    s.selected.map (cellBox cell (some .chosen) none 1)
      ++ s.prepared.map (cellBox cell (some .candidate) none 1)
      ++ gridLines cell side size
      ++ texts
      ++ s.path.map (cellBox cell none (some .path) (max (Int.fdiv cell 15) 2))
      ++ coverLines cell side s.rows s.cols
  return ⟨side, probes, strokes⟩

/-- The drawing of a table of any shape, in which things are marked as a scene says. Only grids have
values to be drawn. -/
def ofTable (shape : List Nat) (cells : List α) (marks : Scene α)
    (cell : Except DrawingFault Int) (atHand : List String) : Except DrawingFault Drawing :=
  match shape with
  | [] => .error .valueMissing
  | [n, m] => do ofScene { marks with values := Table.pieces m n cells } (← cell) atHand
  | 0 :: _ => do ofScene { marks with values := ([] : Grid α) } (← cell) atHand
  | n :: inner => do
    let _ ← side? n (← cell)
    throw (if inner.head? = some 0 then .valueMissing else .valueNotNumber)

def ofSnapshot (s : Snapshot α) (cell : Int) (atHand : List String) :
    Except DrawingFault Drawing :=
  ofScene (.ofSnapshot s) cell atHand

end Drawing

end OptimalAssignment
