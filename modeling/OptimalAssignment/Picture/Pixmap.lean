import OptimalAssignment.Cost.Table
import OptimalAssignment.Picture
import OptimalAssignment.Text.Character

/-!
Plain pixmaps: pictures in text. A text begins with the word for grey or for colour pixels, followed
by width, height, the highest level and the levels of the pixels in row-major order. A number sign
starts a comment.
-/
namespace OptimalAssignment.Picture

def words (s : String) : List String :=
  (s.splitOn "\n").flatMap fun line =>
    ((String.ofList (line.toList.takeWhile (· != '#'))).splitToList Text.isBlank).filter (· != "")

/-- The mode and the number of channels that the first word stands for. -/
def pixmapMode? : String → Option (ColorMode × Nat)
  | "P2" => some (.grey, 1)
  | "P3" => some (.rgb, 3)
  | _ => none

def ofPixmap? (s : String) : Option Picture :=
  match words s with
  | [] => none
  | first :: rest => do
    let (mode, channels) ← pixmapMode? first
    match ← rest.mapM String.toNat? with
    | width :: height :: _ :: levels =>
      if levels.length < channels * (width * height) then none
      else some ⟨mode, width, height, Table.pieces channels (width * height) levels⟩
    | _ => none

end OptimalAssignment.Picture
