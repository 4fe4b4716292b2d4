/-!
Line ends. A carriage return, with or without a line feed after it, ends a line like a line feed.
-/
namespace OptimalAssignment.Text

/-- A text in which every line end is one line feed. -/
def plainNewlines : List Char → List Char
  | '\r' :: '\n' :: rest => '\n' :: plainNewlines rest
  | '\r' :: rest => '\n' :: plainNewlines rest
  | c :: rest => c :: plainNewlines rest
  | [] => []

def ofFile (s : String) : String :=
  String.ofList (plainNewlines s.toList)

def endsShownLine (c : Char) : Bool :=
  let n := c.toNat
  (10 ≤ n && n ≤ 13) || (28 ≤ n && n ≤ 30) || n == 0x85 || n == 0x2028 || n == 0x2029

/-- The lines that are seen when characters are shown after those of a line so far. -/
def shownFrom (line : List Char) : List Char → List String
  | [] => [String.ofList line]
  | c :: cs => if endsShownLine c then String.ofList line :: shownFrom [] cs
    else shownFrom (line ++ [c]) cs

/-- The lines that are seen when a text is shown as a line. -/
def shownLines (s : String) : List String :=
  let cs := plainNewlines (s.toList ++ ['\n'])
  shownFrom [] cs.dropLast

end OptimalAssignment.Text
