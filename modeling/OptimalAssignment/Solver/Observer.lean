import OptimalAssignment.Solver.Run
import OptimalAssignment.Journal
import OptimalAssignment.Drawing
import OptimalAssignment.Files.Folder
import OptimalAssignment.Cost.Table
import OptimalAssignment.Moment

/-!
Observers of a run. Each is called before the run, after each step and after the run, and may write
journal lines, keep what it has seen, or break the run off. All observers of one step are shown one
snapshot; what one of them does to it, the others see.
-/
namespace OptimalAssignment

inductive Occasion where
  | before
  | atStep (step : Int)
  | after
deriving Repr, DecidableEq

/-- An objection: when it is made, its words, and whether it reports a breach of the method, with a
phase and a snapshot if it brings them along. -/
structure Objection where
  occasion : Occasion
  words : String
  isBreach : Bool
  phase : Option Phase
  withSnapshot : Bool
deriving Repr

inductive Failure (α : Type) where
  /-- The table was not accepted. -/
  | rejected (reason : Rejection)
  /-- A condition of the method did not hold. -/
  | breach (words : String) (phase : Option Phase) (snapshot : Option (Snapshot α))
  /-- An observer refused to go on. -/
  | refused (words : String)
  /-- An operation of the solver stopped for another reason. -/
  | stopped (fault : Fault)
  | undrawn (fault : DrawingFault)
  | unwritten (fault : FileFault)

namespace Failure

variable {α : Type}

/-- Words, followed by the label of a phase if there is one. -/
def withPhase (words : String) : Option Phase → String
  | none => words
  | some phase => words ++ " (state: " ++ phase.label ++ ")"

/-- The wording of a failure; empty for failures that have none of their own. -/
def message : Failure α → String
  | rejected reason => reason.message
  | breach words phase _ => withPhase words phase
  | refused words => words
  | stopped _ | undrawn _ | unwritten _ => ""

end Failure

/-- An observer together with what it has seen so far. -/
inductive Observer (α : Type) where
  /-- Does nothing. -/
  | idle
  /-- Keeps every snapshot of the last run. -/
  | recorder (seen : List (Snapshot α))
  /-- Writes a journal line every so many steps, and counts the adjustments of the last run. -/
  | progress (interval : Nat) (adjustments : Nat)
  /-- Keeps a drawing of every step in a folder; the side of a cell, or why it is none. -/
  | drawings (folder : Path) (cell : Except DrawingFault Int) (kept : Nat)
  /-- Overwrites the values of each snapshot. -/
  | eraser (blot : α)
  /-- Breaks the run off. -/
  | objector (objection : Objection)

namespace Observer

variable {α : Type}

def name : Observer α → String
  | idle => "SolverHook"
  | recorder _ => "SnapshotHook"
  | progress .. => "LoggingHook"
  | drawings .. => "ImageExportHook"
  | eraser _ => "ScribbleHook"
  | objector _ => "FailHook"

def channel : String :=
  "kuhnmunkres.hooks"

def line (text : String) : Journal.Line :=
  ⟨channel, .info, text⟩

section Calls

variable [Zero α]

/-- The failure that an objection ends in, made while the solver works on the given data. -/
def failureOf (w : Work α) (o : Objection) : Failure α :=
  if o.isBreach then .breach o.words o.phase (if o.withSnapshot then some w.snapshot else none)
  else .refused o.words

/-- What an observer is before the first step, and the working folder; counts start again. -/
def before (w : Work α) (root : Node) : Observer α → Except (Failure α) (Observer α × Node)
  | recorder _ => .ok (recorder [], root)
  | progress interval _ => .ok (progress interval 0, root)
  | drawings folder cell _ =>
    match root.makeFolders folder with
    | .ok root => .ok (drawings folder cell 0, root)
    | .error fault => .error (.unwritten fault)
  | objector o =>
    if o.occasion = .before then .error (failureOf w o) else .ok (objector o, root)
  | observer => .ok (observer, root)

variable [Legible α]

def progressText (s : Snapshot α) : String :=
  let phase := s.phase.elim "" Phase.word
  let common := s!"Step {s.step} [{phase}] selected: {s.numSelected}/{s.size} "
    ++ s!"covered rows: {s.rows.count true} covered cols: {s.cols.count true}"
  if s.phase = some .adjustPotentials then
    common ++ " adjustment: " ++ Legible.brief s.adjustment
  else if s.phase = some .buildPath then
    common ++ s!" path: {s.preparedPath.length} prepared zero(s)"
  else common

def drawingPath (folder : Path) (step : Nat) : Path :=
  folder.child ("step_" ++ Moment.padded 4 step ++ ".png")

def draw (root : Node) (folder : Path) (cell : Except DrawingFault Int) (s : Snapshot α) :
    Except (Failure α) Node :=
  match cell.bind (Drawing.side? s.size) with
  | .error fault => .error (.undrawn fault)
  | .ok 0 => .error (.undrawn .nothingToKeep)
  | .ok side =>
    match root.write (drawingPath folder s.step) (.drawing side side) with
    | .ok root => .ok root
    | .error fault => .error (.unwritten fault)

/-- Show a snapshot: the snapshot afterwards, the working folder and the lines written. -/
def see (w : Work α) (shown : Snapshot α) (root : Node) :
    Observer α → Except (Failure α) (Snapshot α × Node × List Journal.Line)
  | progress interval _ =>
    .ok (shown, root, if shown.step % interval = 0 then [line (progressText shown)] else [])
  | drawings folder cell _ => (draw root folder cell shown).map (shown, ·, [])
  | eraser blot => .ok ({ shown with values := shown.values.map fun _ => blot }, root, [])
  | objector o =>
    if o.occasion = .atStep shown.step then .error (failureOf w o) else .ok (shown, root, [])
  | idle | recorder _ => .ok (shown, root, [])

/-- An observer after a step; the snapshot is the one that the last observer left behind. -/
def keep (shown : Snapshot α) : Observer α → Observer α
  | recorder seen => recorder (seen ++ [shown])
  | progress interval adjustments =>
    progress interval
      (if shown.phase = some .adjustPotentials then adjustments + 1 else adjustments)
  | drawings folder cell kept => drawings folder cell (kept + 1)
  | observer => observer

def after (w : Work α) (a : Assignment α) : Observer α → Except (Failure α) (List Journal.Line)
  | progress _ adjustments =>
    let n := a.columns.length
    .ok [line (s!"Solved {n}x{n} assignment cost: {Legible.brief a.cost} "
      ++ s!"iterations: {a.iterations} augmentations: {a.augmentations} "
      ++ s!"adjustments: {adjustments} Time: 0.000s")]
  | drawings folder _ kept => .ok [line s!"Saved {kept} step image(s) to {folder.text}"]
  | objector o => if o.occasion = .after then .error (failureOf w o) else .ok []
  | _ => .ok []

end Calls

end Observer

end OptimalAssignment
