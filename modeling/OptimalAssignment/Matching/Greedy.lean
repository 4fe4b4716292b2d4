import OptimalAssignment.Matching.Basic
import OptimalAssignment.Cost.Grid

/-!
The greedy initial selection. Every row keeps a count of its zeros in free columns. The row with
the lowest positive count, the first of equals, takes its first zero in a free column; the other
rows lose that column from their counts and leave once their count is zero.
-/
namespace OptimalAssignment.Greedy

/-- How many zeros in free columns each row still has; rows in ascending order. -/
abbrev Counts := List (Nat × Nat)

/-- What a selection leaves behind: the cells chosen in order, the matching, and what stopped it. -/
structure Outcome (P : Type) where
  chosen : List (Nat × Nat)
  matching : Matching P
  fault : Option Fault

/-- The counts at the start: all zeros of each row. -/
def initialCounts (mask : Grid Bool) : Counts :=
  mask.zipIdx.map fun (row, i) => (i, row.count true)

/-- The row with the lowest count, the first of equals. -/
def leastCount? : Counts → Option (Nat × Nat)
  | [] => none
  | entry :: rest =>
    some (rest.foldl (fun kept next => if next.2 < kept.2 then next else kept) entry)

/-- The first zero of a row whose column is free; a row must reach as far as the slots do. -/
def firstFree {P : Type} : List Bool → List (Option P) → Except Fault (Option Nat)
  | _, [] => .ok none
  | [], _ :: _ => .error .outOfRange
  | zero :: row, slot :: slots =>
    if zero && slot.isNone then .ok (some 0)
    else (firstFree row slots).map (·.map (· + 1))

/-- Take a chosen row out of the counts, and its column out of the counts of the others. -/
def discount (mask : Grid Bool) (row col : Nat) (counts : Counts) : Counts :=
  counts.filterMap fun (other, count) =>
    if other = row then none
    else if (mask.cell? other col).getD false then
      if count = 1 then none else some (other, count - 1)
    else some (other, count)

variable {P : Type} [Position P]

/-- Serve rows until none is left, at most as many as the fuel allows. -/
def serve (mask : Grid Bool) : Nat → Counts → Matching P → Outcome P
  | 0, _, m => ⟨[], m, none⟩
  | fuel + 1, counts, m =>
    match leastCount? counts with
    | none => ⟨[], m, none⟩
    | some (row, count) =>
      if count = 0 then ⟨[], m, some (.rowExhausted row)⟩
      else
        match firstFree (mask[row]?.getD []) m.rowOfCol with
        | .error fault => ⟨[], m, some fault⟩
        | .ok none => ⟨[], m, some (.rowMiscounted row count)⟩
        | .ok (some col) =>
          match m.select (Position.ofNat row) (Position.ofNat col) with
          | .error fault => ⟨[(row, col)], m, some fault⟩
          | .ok m =>
            let rest := serve mask fuel (discount mask row col counts) m
            { rest with chosen := (row, col) :: rest.chosen }

/-- Select independent zeros of a mask, in place of whatever was selected before. -/
def run (mask : Grid Bool) (m : Matching P) : Outcome P :=
  serve mask mask.length (initialCounts mask) (m.clearSelected mask.length)

end OptimalAssignment.Greedy
