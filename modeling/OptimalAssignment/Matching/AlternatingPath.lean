import OptimalAssignment.Matching.Basic

/-!
Alternating paths. From a prepared zero the path goes to the selected zero of its column, from there
to the prepared zero of that row, and so on until a column without a selected zero. Flipping the
path unselects its selected cells and selects its prepared cells.
-/
namespace OptimalAssignment

/-- The prepared and the selected cells of a path, in the order in which they are walked. -/
structure AlternatingPath (P : Type) where
  prepared : List (Cell P) := []
  selected : List (Cell P) := []
deriving Repr, DecidableEq

namespace AlternatingPath

variable {P : Type}

def length (path : AlternatingPath P) : Nat :=
  path.prepared.length + path.selected.length

variable [Position P]

/-- Follow the chain from a column; at most `budget` prepared cells may still join the path. -/
def follow (m : Matching P) : Nat → P → Except Fault (AlternatingPath P)
  | budget, col => do
    match ← m.selectedRow col with
    | none => return {}
    | some row =>
      match ← m.preparedCol row with
      | none => throw (.rowUnmarked (Position.toInt row))
      | some next =>
        match budget with
        | 0 => throw .pathTooLong
        | budget + 1 =>
          let rest ← follow m budget next
          return ⟨(row, next) :: rest.prepared, (row, col) :: rest.selected⟩

def build (m : Matching P) (row col : P) : Except Fault (AlternatingPath P) := do
  let rest ← follow m (m.size - 1) col
  return { rest with prepared := (row, col) :: rest.prepared }

/-- Apply an operation on cells along a list: the matching as far as it went, what stopped it. -/
def along (act : Matching P → P → P → Except Fault (Matching P)) :
    List (Cell P) → Matching P → Matching P × Option Fault
  | [], m => (m, none)
  | (row, col) :: cells, m =>
    match act m row col with
    | .error fault => (m, some fault)
    | .ok m => along act cells m

/-- Flip a path: its selected cells leave the matching, its prepared cells join it, and no
prepared mark remains. -/
def flip [DecidableEq P] (path : AlternatingPath P) (m : Matching P) :
    Matching P × Option Fault :=
  match along Matching.unselect path.selected m with
  | (m, some fault) => (m, some fault)
  | (m, none) =>
    match along Matching.select path.prepared m with
    | (m, some fault) => (m, some fault)
    | (m, none) => (m.clearPrepared, none)

end AlternatingPath

end OptimalAssignment
