import OptimalAssignment.Cost.Table
import OptimalAssignment.Decimal.Read

/-!
Tables in text: one row to a line, with commas between the numbers. A number sign starts a comment,
and a line with nothing in it does not count.
-/
namespace OptimalAssignment.Csv

inductive Fault where
  /-- A field is no number. -/
  | notNumber
  /-- A row is longer or shorter than the first one. -/
  | uneven
deriving Repr, DecidableEq

def withoutComment (line : String) : String :=
  String.ofList (line.toList.takeWhile (· != '#'))

def number (field : String) : Except Fault Float :=
  match Decimal.plainFloat? (Text.trim field.toList) with
  | some x => .ok x
  | none => .error .notNumber

def rows (s : String) : Except Fault (Grid Float) :=
  (((s.splitOn "\n").map withoutComment).filter (!·.isEmpty)).mapM fun line =>
    (line.splitOn ",").mapM number

def table (s : String) : Except Fault (Table Float) := do
  let lists ← rows s
  let width := (lists.headD [0]).length
  if lists.all (·.length = width) then return .array [lists.length, width] lists.flatten
  else throw .uneven

end OptimalAssignment.Csv
