import OptimalAssignment.Cost.Scalar

/-!
Grids: a list of rows. A grid is read cell by cell through `cell?`, and every operation of the
solver on a grid is one of three: a map over its cells, a map that also sees one label per row and
one per column, or the minima along rows or columns.
-/
namespace OptimalAssignment

/-- A grid is the list of its rows. -/
abbrev Grid (α : Type) := List (List α)

namespace Grid

variable {α β γ δ : Type}

/-- The value in row `i` and column `j`, if the grid has that cell. -/
def cell? (g : Grid α) (i j : Nat) : Option α :=
  g[i]?.bind (·[j]?)

/-- Whether the grid has `n` rows of `n` cells each. -/
def IsSquare (n : Nat) (g : Grid α) : Prop :=
  g.length = n ∧ ∀ row ∈ g, row.length = n

instance (n : Nat) (g : Grid α) : Decidable (g.IsSquare n) :=
  inferInstanceAs (Decidable (_ ∧ _))

def map (f : α → β) (g : Grid α) : Grid β :=
  List.map (List.map f) g

/-- Apply a function to every cell together with the label of its row and that of its column. -/
def mapLabelled (f : β → γ → α → δ) (rowLabels : List β) (colLabels : List γ) (g : Grid α) :
    Grid δ :=
  List.zipWith (fun u row => List.zipWith (f u) colLabels row) rowLabels g

/-- The grid whose cells are the given function of their two labels. -/
def ofLabels (f : β → γ → δ) (rowLabels : List β) (colLabels : List γ) : Grid δ :=
  rowLabels.map fun u => colLabels.map (f u)

def rowMinima [Scalar α] (g : Grid α) : List α :=
  List.map Scalar.least g

def colMinima [Scalar α] : Grid α → List α
  | [] => []
  | row :: rows => rows.foldl (List.zipWith Scalar.lower) row

/-- The position of the first cell in row-major order that a test accepts. -/
def firstWhere? (p : α → Bool) (g : Grid α) : Option (Nat × Nat) :=
  search 0 g
where
  search (i : Nat) : Grid α → Option (Nat × Nat)
    | [] => none
    | row :: rows =>
      match row.findIdx? p with
      | some j => some (i, j)
      | none => search (i + 1) rows

end Grid

end OptimalAssignment
