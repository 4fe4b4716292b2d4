/-!
A pen that writes indented lines. It knows its column, whether a blank stands before it, and whether
the line so far holds nothing but marks that a collection may follow on the same line.
-/
namespace OptimalAssignment.Yaml

structure Pen where
  written : String := ""
  column : Nat := 0
  spaced : Bool := true
  fresh : Bool := true

namespace Pen

/-- The greatest column after which a line is not cut. -/
def width : Nat := 80

def put (cs : List Char) (p : Pen) : Pen :=
  { p with written := p.written ++ String.ofList cs, column := p.column + cs.length }

def breakLine (p : Pen) : Pen :=
  ⟨p.written ++ "\n", 0, true, true⟩

/-- Go to a column, on a new line if this one is too far on or holds more than marks. -/
def indentTo (n : Nat) (p : Pen) : Pen :=
  let p := if !p.fresh || n < p.column || (p.column == n && !p.spaced) then p.breakLine else p
  if p.column < n then { p.put (List.replicate (n - p.column) ' ') with spaced := true } else p

/-- Write a mark, behind a blank if it needs one. -/
def mark (c : Char) (needsBlank spacedAfter keepsFresh : Bool) (p : Pen) : Pen :=
  let p' := if p.spaced || !needsBlank then p.put [c] else p.put [' ', c]
  { p' with spaced := spacedAfter, fresh := p.fresh && keepsFresh }

def word (s : String) (p : Pen) : Pen :=
  let p := if p.spaced then p else p.put [' ']
  { p.put s.toList with spaced := false, fresh := false }

/-- The pen in the middle of a line. -/
def inLine (p : Pen) : Pen :=
  { p with spaced := false, fresh := false }

end Pen

end OptimalAssignment.Yaml
