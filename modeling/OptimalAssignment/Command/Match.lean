import OptimalAssignment.Command.Progress

/-!
The command that pairs the pictures of two folders by their mean colours. The pairs with their
distances and the total distance are printed.
-/
namespace OptimalAssignment.Command.Match

structure Request where
  rows : Option String := none
  cols : Option String := none
  settings : Option String := none
  pattern : Option String := none
  workers : Option Int := none
  options : List String := []
deriving Repr, DecidableEq

def options : List Switch := [
  ⟨"--rows", .one⟩, ⟨"--cols", .one⟩, ⟨"--config", .one⟩, ⟨"--pattern", .one⟩,
  ⟨"--num-workers", .one⟩, ⟨"--opts", .many⟩]

def take (r : Request) (option : String) (values : List String) : Except UsageFault Request :=
  let v := values.headD ""
  match option with
  | "--rows" => .ok { r with rows := some v }
  | "--cols" => .ok { r with cols := some v }
  | "--config" => .ok { r with settings := some v }
  | "--pattern" => .ok { r with pattern := some v }
  | "--num-workers" => do return { r with workers := some (← integerOf option v) }
  | _ => .ok { r with options := values }

/-- Two folders of pictures, and what else the command is asked to do. -/
structure Folders where
  rows : String
  cols : String
  rest : Request
deriving Repr, DecidableEq

/-- Read the arguments. Both folders have to be there. -/
def request (args : List String) : Except UsageFault Folders := do
  let r ← readArguments options take {} args
  match r.rows, r.cols with
  | some rows, some cols => return ⟨rows, cols, r⟩
  | none, _ => throw (.absent "--rows")
  | _, none => throw (.absent "--cols")

def channel : String :=
  "match_images"

def patternFor (r : Request) (s : Settings) : Value :=
  match r.pattern with
  | some pattern =>
    if pattern.isEmpty then s.getD "costs.pattern" (.text "*.png") else .text pattern
  | none => s.getD "costs.pattern" (.text "*.png")

def workersFor (r : Request) (s : Settings) : Value :=
  match r.workers with
  | some n => if n = 0 then s.getD "costs.num_workers" (.integer 4) else .integer n
  | none => s.getD "costs.num_workers" (.integer 4)

def workerCount : Value → Except Image.CostFault Int
  | .atom (.truth b) => .ok (if b then 1 else 0)
  | .atom (.integer n) => .ok n
  | .atom (.real x) => .ok (if x > 1.0 then x.ceil.toUInt64.toNat else 1)
  | _ => .error .workersNotNumber

/-- Why a value other than a text is no pattern of names. It is looked at like a text: at what is in
front first, and then for slashes, at which it would have to be cut. -/
def strayPattern : Value → Fault
  | .list items => if items.any isSlash then .patternUncut .notSection else .patternNotText
  | .table es =>
    let cut (name : String) : Fault :=
      if (Entries.find? (.text name) es).isSome then .patternNotText
      else .patternUncut (.noKey name)
    match Entries.find? (.integer 0) es with
    | none => .patternWithoutFront
    | some front =>
      if isSlash front then cut "lstrip"
      else if (Entries.find? (.text "/") es).isSome then cut "split"
      else .patternNotText
  | _ => .patternNotText
where
  /-- Whether a value is the text of a slash. -/
  isSlash : Value → Bool
    | .text s => s == "/"
    | _ => false

def pathsIn (folder : String) (pattern : Value) : Action (List Path) := do
  let root := (← get).root
  let p := Path.ofText folder
  match pattern with
  | .text s => orEnd .collection (Collection.find root p s)
  | v =>
    orEnd .collection (Collection.checkFolder root p)
    throw (if v.isTruthy then strayPattern v else .emptyPattern v)

def distanceText (x : Float) : String :=
  "(" ++ Decimal.twoPlaceText x ++ ")"

def pairText (rows cols : List Path) (costs : Grid Float) (i j : Nat) : String :=
  let name (paths : List Path) (k : Nat) : String := (paths[k]?.map Path.name).getD ""
  name rows i ++ " -> " ++ name cols j ++ " " ++ distanceText ((costs.cell? i j).getD 0.0)

def pair (r : Folders) (s : Settings) : Action Unit := do
  let pattern := patternFor r.rest s
  let rows ← pathsIn r.rows pattern
  let cols ← pathsIn r.cols pattern
  note [⟨channel, .info, s!"Found {rows.length} row and {cols.length} column image(s)"⟩]
  let root := (← get).root
  let rowPictures ← orEnd .collection (Collection.openAll root rows)
  let colPictures ← orEnd .collection (Collection.openAll root cols)
  let costs ← orEnd .costs
    (Image.costs (workerCount (workersFor r.rest s)) (rowPictures.map .picture)
      (colPictures.map .picture))
  note [Image.builtLine rows.length cols.length]
  match ← solveTable s (.array [rows.length, cols.length] costs.flatten) with
  | .error failure => throw (.solver failure)
  | .ok a =>
    print (a.columns.zipIdx.map fun (j, i) => pairText rows cols costs i j)
    print ["total distance: " ++ Decimal.twoPlaceText a.cost]

/-- The wording of a fault that says there is no pairing; nothing for faults of another kind. -/
def lackOfPairing? : Fault → Option String
  | .emptyPattern given => some ("Unacceptable pattern: " ++ given.literal)
  | .collection (.noFolder p) => some (Collection.Fault.noFolder p).message
  | .collection (.search .blank) => some SearchFault.blank.message
  | .collection (.search .starsInName) => some SearchFault.starsInName.message
  | .costs (.noImages rows cols) => some (Image.CostFault.noImages rows cols).message
  | .setup fault => if fault.isUnfitNumber then some fault.message else none
  | .solver (.undrawn .negativeSide) => some DrawingFault.negativeSide.message
  | .solver (.unwritten .holdsZero) => some FileFault.holdsZero.message
  | .solver failure => if lacksAssignment failure then some failure.message else none
  | _ => none

/-- The command: the exit code is one if there is no pairing. -/
def action (args : List String) : Action Nat := do
  let r ← orEnd .usage (request args)
  let s ← settingsFor r.rest.settings r.rest.options []
  openJournal s
  tryCatch (do pair r s; return 0) fun fault =>
    match lackOfPairing? fault with
    | some words => do
      note [⟨channel, .error, "Failed to match images: " ++ words⟩]
      return 1
    | none => throw fault

def run (root : Node) (args : List String) : Ending :=
  (action args).run root

end OptimalAssignment.Command.Match
