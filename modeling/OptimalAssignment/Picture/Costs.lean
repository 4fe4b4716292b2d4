import OptimalAssignment.Cost.Grid
import OptimalAssignment.Journal
import OptimalAssignment.Picture.MeanColor
import OptimalAssignment.Schedule

/-!
Costs of pairing images. The cost of a row image and a column image is the distance of their mean
colours. Every row is a task of its own; the rows are collected in order once all tasks have ended.
-/
namespace OptimalAssignment.Image

variable {α : Type}

inductive CostFault where
  /-- One of the two lists of images is empty. -/
  | noImages (rows cols : Nat)
  /-- An image has no mean colour. -/
  | color (fault : ColorFault)
  /-- Two mean colours differ in their number of channels. -/
  | channelsDiffer
  /-- The number of workers is no number. -/
  | workersNotNumber
deriving Repr, DecidableEq

/-- The wording of a fault; empty for faults that have none of their own. -/
def CostFault.message : CostFault → String
  | noImages rows cols =>
    s!"Cannot build a cost matrix from {rows} row image(s) and {cols} column image(s)"
  | _ => ""

/-- The mean colours of images that all have the same number of channels. -/
def meansOf [Measure α] (images : List (Image α)) : Except CostFault (List (List α)) := do
  let means ← images.mapM fun image => image.meanColor.mapError CostFault.color
  let width := (means.headD []).length
  if means.all fun m => m.length = width then return means else throw .channelsDiffer

/-- Whether two points can be compared coordinate by coordinate. -/
def comparable (width other : Nat) : Bool :=
  width = other || width = 1 || other = 1

/-- The costs of pairing one image with images of given mean colours. -/
def rowCosts [Measure α] (means : List (List α)) (image : Image α) : Except CostFault (List α) := do
  let mean ← image.meanColor.mapError CostFault.color
  if comparable mean.length (means.headD []).length then
    return means.map (Measure.distance · mean)
  else throw .channelsDiffer

def score [Measure α] (means : List (List α)) (rows : List (Image α)) (i : Nat) :
    Except CostFault (List α) :=
  match rows[i]? with
  | some image => rowCosts means image
  | none => .ok []

/-- The costs of pairing each row image with each column image, when tasks end in the order that
the workers and the picks leave open. -/
def costsBy [Measure α] (workers : Except CostFault Int) (picks : List Nat)
    (rows cols : List (Image α)) : Except CostFault (Grid α) := do
  if rows.isEmpty || cols.isEmpty then throw (.noImages rows.length cols.length)
  let means ← meansOf cols
  let board := Schedule.run (← workers) picks rows.length (score means rows)
  return (← board.collect).map (·.getD [])

/-- The costs of pairing each row image with each column image. -/
def costs [Measure α] (workers : Except CostFault Int) (rows cols : List (Image α)) :
    Except CostFault (Grid α) :=
  costsBy workers [] rows cols

def channel : String :=
  "kuhnmunkres.costs"

def builtLine (rows cols : Nat) : Journal.Line :=
  ⟨channel, .info, s!"Built {rows}x{cols} cost matrix"⟩

end OptimalAssignment.Image
