import OptimalAssignment.Command.Progress
import OptimalAssignment.Yaml.Writing

/-!
The command that solves one table, from a file or made at random. The pairs and the cost are
printed; on request they are also written to a file, and a drawing of every step is kept.
-/
namespace OptimalAssignment.Command.Solve

structure Request where
  input : Option String := none
  random : Option Int := none
  seed : Option Int := none
  settings : Option String := none
  drawings : Option String := none
  output : Option String := none
  options : List String := []
deriving Repr, DecidableEq

def options : List Switch := [
  ⟨"--input", .one⟩, ⟨"--random", .one⟩, ⟨"--seed", .one⟩, ⟨"--config", .one⟩,
  ⟨"--export-dir", .one⟩, ⟨"--output", .one⟩, ⟨"--opts", .many⟩]

/-- Take up an option. A file and a random table do not go together. -/
def take (r : Request) (option : String) (values : List String) : Except UsageFault Request :=
  let v := values.headD ""
  match option with
  | "--input" =>
    if r.random.isSome then .error (.conflict option) else .ok { r with input := some v }
  | "--random" => do
    let n ← integerOf option v
    if r.input.isSome then .error (.conflict option) else .ok { r with random := some n }
  | "--seed" => do return { r with seed := some (← integerOf option v) }
  | "--config" => .ok { r with settings := some v }
  | "--export-dir" => .ok { r with drawings := some v }
  | "--output" => .ok { r with output := some v }
  | _ => .ok { r with options := values }

/-- Read the arguments. There has to be a file or the size of a random table. -/
def request (args : List String) : Except UsageFault Request := do
  let r ← readArguments options take {} args
  if r.input.isNone && r.random.isNone then throw (.absent "--input")
  return r

/-- A text that is there and not empty. -/
def given? (s : Option String) : Option String :=
  s.filter (!·.isEmpty)

def channel : String :=
  "solve"

def info (text : String) : Journal.Line :=
  ⟨channel, .info, text⟩

def textAt (file : String) : Action String := do
  let root := (← get).root
  let form ← orEnd .file (root.formAt file)
  let text ← orEnd .file (root.readText form)
  match Packing.ofName? form.name with
  | none => return text
  | some packing => orEnd .packed (packing.unpack text)

/-- The table to solve: that of a file, or a random one. -/
def tableFor (r : Request) : Action (Table Float) := do
  match given? r.input with
  | some file =>
    let table ← orEnd .csv (Csv.table (← textAt file))
    note [info ("Loaded cost matrix from: " ++ file)]
    return table
  | none =>
    let _ ← orEnd .random (Random.generator (r.seed.getD 0))
    match r.random with
    | none => throw .noSize
    | some n =>
      let g ← orEnd .random (Random.grid n r.seed)
      note [info s!"Generated random {n}x{n} cost matrix"]
      return .rows (g.map Float.ofNat)

def further (r : Request) : List (String × Value) :=
  match given? r.drawings with
  | some folder => [("export.enabled", .truth true), ("export.output_dir", .text folder)]
  | none => []

def record (a : Assignment Float) : Value :=
  Settings.ofNames [
    ("assignment", .list (a.columns.map fun (j : Nat) => .integer j)),
    ("cost", .real a.cost),
    ("iterations", .integer a.iterations),
    ("augmentations", .integer a.augmentations)]

/-- Write an assignment to a file; folders on the way are made. -/
def save (a : Assignment Float) (file : String) : Action Unit := do
  let p := Path.ofText file
  moveTo (← orEnd .file ((← get).root.makeFolders p.parent))
  moveTo (← orEnd .file ((← get).root.write p (.text (Yaml.write (record a)))))
  note [info ("Saved result to: " ++ p.text)]

def summary (a : Assignment Float) : List String :=
  (a.columns.zipIdx.map fun (j, i) => s!"{i} -> {j}") ++ ["cost: " ++ Decimal.briefText a.cost]

/-- The command: the exit code is one if there is no assignment. -/
def action (args : List String) : Action Nat := do
  let r ← orEnd .usage (request args)
  let s ← settingsFor r.settings r.options (further r)
  openJournal s
  let table ← tableFor r
  match ← solveTable s table with
  | .ok a =>
    print (summary a)
    match given? r.output with
    | some file => save a file
    | none => pure ()
    return 0
  | .error failure =>
    if lacksAssignment failure then
      note [⟨channel, .error, "Failed to solve: " ++ failure.message⟩]
      return 1
    else throw (.solver failure)

def run (root : Node) (args : List String) : Ending :=
  (action args).run root

end OptimalAssignment.Command.Solve
