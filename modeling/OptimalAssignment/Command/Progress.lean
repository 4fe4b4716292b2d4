import OptimalAssignment.Command.Arguments
import OptimalAssignment.Cost.Csv
import OptimalAssignment.Files.Packed
import OptimalAssignment.Picture.Collection
import OptimalAssignment.Random.Shuffle
import OptimalAssignment.Settings.Attribute
import OptimalAssignment.Settings.Inheritance
import OptimalAssignment.Settings.Options
import OptimalAssignment.Solver.Setup
import OptimalAssignment.Text.Character

/-!
Commands. A command prints lines, writes journal lines and changes the working folder as it goes,
and ends with an exit code or with a fault. The settings of a command come from a file laid over the
defaults and from options; they also say from which weight on journal lines are written.
-/
namespace OptimalAssignment.Command

inductive Fault where
  | usage (fault : UsageFault)
  | settings (fault : Settings.LoadFault)
  | option (fault : Settings.OptionFault)
  /-- Tables lie within each other without end in the value of an option. -/
  | optionEndless
  /-- The level of the journal is the text of a layout and no level. -/
  | levelIsLayout
  /-- The level of the journal is a table of styles and no level. -/
  | levelIsTable
  | csv (fault : Csv.Fault)
  | packed (fault : PackedFault)
  | random (fault : Random.GridFault)
  /-- The size of a random table is missing. -/
  | noSize
  /-- Nothing usable is given as a pattern of names. -/
  | emptyPattern (given : Value)
  /-- What is given as a pattern of names is no text. -/
  | patternNotText
  /-- A table given as a pattern of names has nothing in front. -/
  | patternWithoutFront
  /-- What is given as a pattern of names cannot be cut into parts. -/
  | patternUncut (fault : Desk.AttributeFault)
  | collection (fault : Collection.Fault)
  | costs (fault : Image.CostFault)
  | setup (fault : SetupFault)
  | solver (failure : Failure Float)
  | file (fault : FileFault)

def Fault.message : Fault → String
  | usage _ => "the arguments are not accepted"
  | settings (.missing path) => (Settings.LoadFault.missing path).message
  | settings _ => "the settings cannot be read"
  | option (.noEquals word) => (Settings.OptionFault.noEquals word).message
  | option (.unreadable _) | optionEndless => "the value of an option cannot be read"
  | levelIsLayout | levelIsTable => "the level of the journal is no level"
  | csv _ | packed _ => "the file holds no table of numbers"
  | random _ | noSize => "there is no such random table"
  | emptyPattern _ | patternNotText | patternWithoutFront | patternUncut _ =>
    "the pattern of names is no text"
  | collection (.noFolder path) => (Collection.Fault.noFolder path).message
  | collection (.search fault) => fault.message
  | collection _ => "a file is no picture"
  | costs fault => if fault.message.isEmpty then "the pictures have no costs" else fault.message
  | setup fault => if fault.message.isEmpty then "the solver cannot be set up" else fault.message
  | solver failure => if failure.message.isEmpty then "the solver broke down" else failure.message
  | file _ => "a file cannot be read or written"

structure Progress where
  root : Node
  /-- The lines printed. -/
  printed : List String := []
  /-- The weight from which on journal lines are written. -/
  threshold : Nat := 0
  /-- The journal lines written. -/
  lines : List Journal.Line := []

abbrev Action (α : Type) := ExceptT Fault (StateM Progress) α

def print (lines : List String) : Action Unit :=
  modify fun p => { p with printed := p.printed ++ lines }

def note (lines : List Journal.Line) : Action Unit :=
  modify fun p => { p with lines := p.lines ++ Journal.atLeast p.threshold lines }

/-- Go on with a result, or end with what a fault amounts to. -/
def orEnd {ε α : Type} (wrap : ε → Fault) (result : Except ε α) : Action α :=
  match result with
  | .ok a => pure a
  | .error fault => throw (wrap fault)

def moveTo (root : Node) : Action Unit :=
  modify fun p => { p with root }

structure Ending where
  /-- The exit code, or the fault that nothing has dealt with. -/
  exit : Except Fault Nat
  printed : List String
  lines : List Journal.Line
  root : Node

/-- Run a command in a working folder. Arguments that are not accepted end it with an exit code. -/
def Action.run (root : Node) (command : Action Nat) : Ending :=
  let (result, p) := StateT.run (ExceptT.run command) { root }
  let exit :=
    match result with
    | .error (.usage fault) => .ok fault.exitCode
    | result => result
  ⟨exit, p.printed, p.lines, p.root⟩

/-- The weight that a level of the journal has by its name; names without one weigh as much as
information. -/
def weightOf (level : String) : Except Fault Nat :=
  match Text.capitals level with
  | "BASIC_FORMAT" => .error .levelIsLayout
  | "_STYLES" => .error .levelIsTable
  | name => .ok ((Journal.weightOf? name).getD Journal.Level.info.weight)

/-- The settings of a command: those of a file, if one is named, over the defaults, then the
options, then further ones. -/
def settingsFor (file : Option String) (options : List String) (further : List (String × Value)) :
    Action Settings := do
  let base ←
    match file with
    | none => pure Settings.defaults
    | some s =>
      if s.isEmpty then pure Settings.defaults
      else orEnd .settings (Settings.load (← get).root (.ofText s))
  let overrides ← orEnd .option (Settings.sharedOverrides options)
  let (d, done) := (Desk.of base).apply overrides
  if !done then throw .optionEndless
  return (further.foldl (fun d (key, v) => d.set key v []) d).settings

/-- Take over the weight of journal lines from settings. -/
def openJournal (s : Settings) : Action Unit := do
  let threshold ← orEnd id (weightOf (s.getD "logging.level" (.text "INFO")).plain)
  modify fun p => { p with threshold }

def solveTable (s : Settings) (table : Table Float) :
    Action (Except (Failure Float) (Assignment Float)) := do
  let session ← orEnd .setup (Session.setup (.settings s) none .null .null (← get).root)
  let (session, report) := session.solve table
  moveTo session.root
  note report.lines
  return report.outcome

/-- Whether a failure says that there is no assignment, rather than that the solver broke down. -/
def lacksAssignment : Failure Float → Bool
  | .rejected reason => reason.isShape || reason = .notFinite
  | .breach .. => true
  | _ => false

end OptimalAssignment.Command
