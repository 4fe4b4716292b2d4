import OptimalAssignment.Cost.Measure
import OptimalAssignment.Cost.Table
import OptimalAssignment.Picture

/-!
Mean colours. An image is a picture, or an array whose channels lie on its last or its first axis.
At most three channels count, so alpha is dropped, and a plane without a channel axis counts as
three equal channels. The mean colour has one mean for each channel that counts.
-/
namespace OptimalAssignment

inductive Image (α : Type) where
  | picture (p : Picture)
  /-- Cells in row-major order whose last axis holds the channels. -/
  | channelsLast (shape : List Nat) (cells : List α)
  /-- Cells in row-major order whose first axis holds the channels. -/
  | channelsFirst (shape : List Nat) (cells : List α)
  /-- A thing that is no image. -/
  | foreign
deriving Repr

inductive ColorFault where
  /-- The thing handed in is no image. -/
  | notImage
  /-- The array has no axis. -/
  | noAxis
  /-- The axis of the channels has no entry. -/
  | noChannel
deriving Repr, DecidableEq

namespace Image

variable {α : Type}

def kept (channels : Nat) : Except ColorFault Nat :=
  if channels = 0 then .error .noChannel else .ok (min channels 3)

/-- The channels of pixels that stand one after the other. -/
def gather (channels : Nat) (pixels : List (List α)) : List (List α) :=
  (List.range channels).map fun c => pixels.filterMap (·[c]?)

/-- The channels that count, each with its values in the order of the pixels. -/
def channels [Measure α] : Image α → Except ColorFault (List (List α))
  | picture p => .ok (gather 3 (p.colors.map (·.map Measure.count)))
  | foreign => .error .notImage
  | channelsLast [] _ | channelsFirst [] _ => .error .noAxis
  | channelsLast [_, _] cells | channelsFirst [_, _] cells => .ok (List.replicate 3 cells)
  | channelsLast shape cells => do
    let depth := shape.getLastD 0
    return gather (← kept depth) (Table.pieces depth (Table.extent shape.dropLast) cells)
  | channelsFirst (depth :: rest) cells => do
    return Table.pieces (Table.extent rest) (← kept depth) cells

def meanColor [Measure α] (image : Image α) : Except ColorFault (List α) :=
  image.channels.map (·.map Measure.mean)

end Image

end OptimalAssignment
