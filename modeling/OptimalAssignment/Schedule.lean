/-!
Schedules. Numbered tasks wait in a row and a number of workers take them up from the front, so that
only the first few that are left can be the next to end. A board collects what the tasks bring
about: one place for each row, the way each task ended, and the order in which rows were written.
-/
namespace OptimalAssignment.Schedule

/-- The order in which waiting tasks end when as many as there are workers are in hand at a time.
Each pick says which of those in hand is the next to end; without a pick it is the first. -/
def order (workers : Nat) (picks : List Nat) (waiting : List Nat) : List Nat :=
  let inHand := waiting.take workers
  let spot := picks.headD 0 % inHand.length
  if hs : spot < inHand.length then
    inHand[spot] :: order workers picks.tail (waiting.eraseIdx spot)
  else []
termination_by waiting.length
decreasing_by
  have hw : spot < waiting.length := by
    simp only [inHand, List.length_take] at hs
    omega
  rw [List.length_eraseIdx_of_lt hw]
  omega

structure Board (ε β : Type) where
  /-- The rows; nothing stands where none has been written. -/
  rows : List (Option β)
  /-- How the task of each row ended; nothing stands where it has not. -/
  ends : List (Option (Except ε Unit))
  /-- The rows in the order in which they were written. -/
  written : List Nat

namespace Board

variable {ε β : Type}

/-- The board for a number of rows before any task is taken up. -/
def blank (n : Nat) : Board ε β :=
  ⟨List.replicate n none, List.replicate n none, []⟩

/-- The board after a task has ended: a row is written if the task brought one. -/
def finish (score : Nat → Except ε β) (board : Board ε β) (task : Nat) : Board ε β :=
  match score task with
  | .ok row => {
      rows := board.rows.set task (some row)
      ends := board.ends.set task (some (.ok ()))
      written := board.written ++ [task] }
  | .error fault => { board with ends := board.ends.set task (some (.error fault)) }

def firstFault? (board : Board ε β) : Option ε :=
  board.ends.findSome? fun
    | some (.error fault) => some fault
    | _ => none

/-- The rows of the board, unless a task failed. -/
def collect (board : Board ε β) : Except ε (List (Option β)) :=
  match board.firstFault? with
  | some fault => .error fault
  | none => .ok board.rows

end Board

/-- The board after the tasks of a number of rows have ended in an order that workers and picks
leave open. There is at least one worker. -/
def run {ε β : Type} (workers : Int) (picks : List Nat) (n : Nat) (score : Nat → Except ε β) :
    Board ε β :=
  (order (max workers 1).toNat picks (List.range n)).foldl (Board.finish score) (Board.blank n)

end OptimalAssignment.Schedule
