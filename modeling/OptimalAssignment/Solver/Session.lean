import OptimalAssignment.Solver.Observer
import OptimalAssignment.Value

/-!
Sessions: one solver, used for one table after the other. A session keeps its observers and the data
of its last run. A table that is not accepted leaves both as they were; otherwise the run is shown
to the observers step by step until its end or until one of them breaks it off.
-/
namespace OptimalAssignment

/-- A ceiling for grids of a given size, from the value that a user sets. Nothing stands for the
standard ceiling; an endless or undefined number is no ceiling, and what is no number cannot be
compared with the count of passes. -/
def Ceiling.ofValue (n : Nat) (v : Value) : Ceiling :=
  let upTo (budget : Nat) : Ceiling := ⟨budget, .ceilingReached v.plain⟩
  let endless : Ceiling := ⟨2 * n * (n + 1), .unfinished⟩
  match v with
  | .null => .standard n
  | .atom (.truth b) => upTo (if b then 1 else 0)
  | .atom (.integer k) => upTo k.toNat
  | .atom (.real x) =>
    match Decimal.decode x with
    | .undefined => endless
    | .infinite negative => if negative then upTo 0 else endless
    | .finite negative b => upTo (if negative then 0 else b.ratio.floor)
  | _ => ⟨0, .ceilingIncomparable⟩

/-- A solver with its observers. -/
structure Session (α : Type) where
  observers : List (Observer α) := []
  /-- The ceiling on passes; nothing stands for the standard one. -/
  ceiling : Value := .null
  /-- Whether every cost has to be finite. -/
  finite : Bool := true
  /-- The data of the last run that began. -/
  work : Option (Work α) := none
  /-- The working folder. -/
  root : Node := .empty

namespace Session

variable {α : Type}

def channel : String :=
  "kuhnmunkres.solver"

/-- What a session writes while it solves one table, and how that ends. -/
structure Report (α : Type) where
  lines : List Journal.Line
  outcome : Except (Failure α) (Assignment α)

/-- Observers after they were called in turn, the working folder, the lines written, and the failure
if one of them broke off; the ones after that were not called. -/
structure Called (α : Type) where
  observers : List (Observer α)
  root : Node
  lines : List Journal.Line
  failure : Option (Failure α)

section Calls

variable [Zero α]

def beginAll (w : Work α) : Node → List (Observer α) → Called α
  | root, [] => ⟨[], root, [], none⟩
  | root, o :: rest =>
    match o.before w root with
    | .error failure => ⟨o :: rest, root, [], some failure⟩
    | .ok (o, root) =>
      let called := beginAll w root rest
      { called with observers := o :: called.observers }

variable [Legible α]

/-- Show a snapshot to observers in turn; also the snapshot as the last one called leaves it. -/
def showAll (w : Work α) : Snapshot α → Node → List (Observer α) → Called α × Snapshot α
  | shown, root, [] => (⟨[], root, [], none⟩, shown)
  | shown, root, o :: rest =>
    match o.see w shown root with
    | .error failure => (⟨o :: rest, root, [], some failure⟩, shown)
    | .ok (shown, root, lines) =>
      let (called, final) := showAll w shown root rest
      ({ called with
          observers := o.keep final :: called.observers
          lines := lines ++ called.lines }, final)

def endAll (w : Work α) (a : Assignment α) :
    List (Observer α) → List Journal.Line × Option (Failure α)
  | [] => ([], none)
  | o :: rest =>
    match o.after w a with
    | .error failure => ([], some failure)
    | .ok lines =>
      let (later, failure) := endAll w a rest
      (lines ++ later, failure)

/-- What the solver itself writes after a step: after the reduction the cells that the initial
selection chooses, after the selection its size. -/
def remarks (chosen : List (Nat × Nat)) (w : Work α) : List Journal.Line :=
  match w.phase with
  | some .reduce =>
    chosen.map fun (row, col) => ⟨channel, .debug, s!"Select 0 in row {row} at column {col}"⟩
  | some .select =>
    [⟨channel, .debug, s!"Initial selection: {w.matching.numSelected}/{w.size} zeros"⟩]
  | _ => []

/-- Show the steps of a run to observers; also the data at the step where one broke off. -/
def walk (chosen : List (Nat × Nat)) (root : Node) (observers : List (Observer α)) :
    List (Work α) → Called α × Option (Work α)
  | [] => (⟨observers, root, [], none⟩, none)
  | w :: rest =>
    let called := (showAll w w.snapshot root observers).1
    match called.failure with
    | some _ => (called, some w)
    | none =>
      let (later, stop) := walk chosen called.root called.observers rest
      ({ later with lines := called.lines ++ remarks chosen w ++ later.lines }, stop)

/-- A breach of the method with the phase and the data at which it came up, unless it brings its
own; other failures as they are. -/
def situate (w : Work α) : Failure α → Failure α
  | .breach words phase snapshot =>
    .breach words (phase <|> w.phase) (snapshot <|> some w.snapshot)
  | failure => failure

/-- The end of a run that broke off: only a breach of the method is reported. -/
def abort (w : Work α) (failure : Failure α) : Report α :=
  let failure := situate w failure
  match failure with
  | .breach .. => ⟨[⟨channel, .error, "Solve aborted: " ++ failure.message⟩], .error failure⟩
  | _ => ⟨[], .error failure⟩

def failureOfFault (fault : Fault) : Failure α :=
  if fault.isBreach then .breach fault.message none none else .stopped fault

/-- The end of a run that no observer broke off. -/
def conclude (observers : List (Observer α)) (run : Run α) : Report α :=
  match run.result with
  | .error fault => abort run.work (failureOfFault fault)
  | .ok a =>
    let n := run.work.size
    let summary : Journal.Line := ⟨channel, .info,
      s!"Solved {n}x{n} assignment with cost {Legible.brief a.cost} "
        ++ s!"({a.iterations} iterations, {a.augmentations} augmentations)"⟩
    match endAll run.work a observers with
    | (lines, none) => ⟨summary :: lines, .ok a⟩
    | (lines, some failure) => ⟨summary :: lines, .error failure⟩

end Calls

variable [Scalar α] [Legible α]

def solveGrid (s : Session α) (g : Grid α) : Session α × Report α :=
  let start := Work.start g
  let began := beginAll start s.root s.observers
  match began.failure with
  | some failure =>
    ({ s with observers := began.observers, root := began.root, work := some start },
      ⟨[], .error failure⟩)
  | none =>
    let run := Run.solve (.ofValue g.length s.ceiling) g
    let (seen, stop) := walk run.chosen began.root began.observers run.entries
    let report :=
      match seen.failure, stop with
      | some failure, some w => abort w failure
      | _, _ => conclude seen.observers run
    ({ s with
        observers := seen.observers
        root := seen.root
        work := some (stop.getD run.work) },
      { report with lines := seen.lines ++ report.lines })

def solve (s : Session α) (table : Table α) : Session α × Report α :=
  match table.accept s.finite with
  | .error reason => (s, ⟨[], .error (.rejected reason)⟩)
  | .ok g => s.solveGrid g

/-- Solve one table after the other; the reports in order. -/
def solveAll (s : Session α) : List (Table α) → Session α × List (Report α)
  | [] => (s, [])
  | table :: rest =>
    let (s, report) := s.solve table
    let (s, reports) := s.solveAll rest
    (s, report :: reports)

def describe (s : Session α) : String :=
  let names := s.observers.map fun o => Value.text o.name
  "HungarianSolver(hooks=" ++ (Value.list names).literal ++ ", max_iterations=" ++ s.ceiling.plain
    ++ ")"

end Session

end OptimalAssignment
