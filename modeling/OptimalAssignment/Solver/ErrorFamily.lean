import OptimalAssignment.Solver.Phase

/-!
Families of solver errors. Every error of the solver belongs to a family, and a family lies within
wider ones: a wrong shape is a wrong value, and a cost that is not finite is a breach of what the
method relies on.
-/
namespace OptimalAssignment

inductive ErrorFamily where
  | general
  | dimension
  | invariant
  | nonFinite
deriving Repr, DecidableEq

namespace ErrorFamily

def name : ErrorFamily → String
  | general => "AssignmentError"
  | dimension => "DimensionError"
  | invariant => "InternalInvariantError"
  | nonFinite => "NonFiniteCostError"

def ofName? (s : String) : Option ErrorFamily :=
  [general, dimension, invariant, nonFinite].find? (·.name == s)

/-- The names of all families that a family lies within, itself included. -/
def within : ErrorFamily → List String
  | general => [general.name]
  | dimension => ["ValueError", general.name, dimension.name]
  | invariant => ["RuntimeError", general.name, invariant.name]
  | nonFinite => ["RuntimeError", general.name, invariant.name, nonFinite.name]

def carriesPhase (f : ErrorFamily) : Bool :=
  f.within.contains invariant.name

end ErrorFamily

end OptimalAssignment
