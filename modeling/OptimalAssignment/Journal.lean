/-!
Journal lines: what a run reports, each line on a channel and with a level. A reader of the journal
sees the lines at or above a level of its choice.
-/
namespace OptimalAssignment.Journal

inductive Level where
  | debug
  | info
  | warning
  | error
  | critical
deriving Repr, DecidableEq

namespace Level

def weight : Level → Nat
  | debug => 10
  | info => 20
  | warning => 30
  | error => 40
  | critical => 50

def name : Level → String
  | debug => "DEBUG"
  | info => "INFO"
  | warning => "WARNING"
  | error => "ERROR"
  | critical => "CRITICAL"

def ofName? (s : String) : Option Level :=
  [debug, info, warning, error, critical].find? (·.name == s)

end Level

/-- The weight that goes by a name: that of a level, by its name or a second one, or none at all. -/
def weightOf? (name : String) : Option Nat :=
  match name with
  | "NOTSET" => some 0
  | "WARN" => some Level.warning.weight
  | "FATAL" => some Level.critical.weight
  | name => (Level.ofName? name).map Level.weight

structure Line where
  channel : String
  level : Level
  text : String
deriving Repr, DecidableEq

def Line.shown (line : Line) : String :=
  line.channel ++ " - " ++ line.level.name ++ " - " ++ line.text

/-- The lines at or above a weight. -/
def atLeast (weight : Nat) (lines : List Line) : List Line :=
  lines.filter fun line => weight ≤ line.level.weight

end OptimalAssignment.Journal
