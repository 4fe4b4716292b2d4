import OptimalAssignment.Command.Match
import OptimalAssignment.Command.Solve
import OptimalAssignment.Picture.Pixmap

/-!
The command line. The first word names the command and the others are its arguments. Of the working
folder a command is shown what its arguments name, and the settings files that those name in turn;
the texts that it writes are kept. Pictures come as plain pixmaps, and drawings are not kept.
-/
namespace OptimalAssignment.CommandLine

/-- The file that a text was read from: a plain pixmap is a picture. -/
def fileOf (s : String) : Node :=
  .file (((Picture.ofPixmap? s).map Content.picture).getD (.text s))

/-- What lies at the end of some names. -/
partial def load (names : List String) : IO (Option Node) := do
  let place := names.foldl (fun place name => place / name) (← IO.currentDir)
  if !(← place.pathExists) then return none
  if ← place.isDir then
    let mut entries : List (String × Node) := []
    for entry in ← place.readDir do
      match ← load (names ++ [entry.fileName]) with
      | some node => entries := entries ++ [(entry.fileName, node)]
      | none => pure ()
    return some (.folder entries)
  try
    return some (fileOf (← IO.FS.readFile place))
  catch _ =>
    return some (.file (.drawing 0 0))

def showPath (root : Node) (p : Path) : IO Node := do
  if p.isAbsolute then return root
  match ← load p.names with
  | some node => return node.plant p.names root
  | none => return root

/-- Run a command and show it the settings files that it misses, as long as there are any. -/
partial def runWith (run : Node → List String → Command.Ending) (args : List String)
    (root : Node) : IO Command.Ending := do
  let ending := run root args
  match ending.exit with
  | .error (.settings (.missing p)) =>
    let more ← showPath root p
    if (more.find p).toOption.isSome then runWith run args more else return ending
  | _ => return ending

def keep (names : List String) (s : String) : IO Unit := do
  let folder := names.dropLast.foldl (fun place name => place / name) (← IO.currentDir)
  IO.FS.createDirAll folder
  IO.FS.writeFile (folder / names.getLast?.getD "") s

/-- Run a command on the working folder and print what it prints. -/
def perform (run : Node → List String → Command.Ending) (args : List String) : IO UInt32 := do
  let mut root := Node.empty
  for word in args.flatMap (·.splitOn "=") do
    root ← showPath root (.ofText word)
  let ending ← runWith run args root
  for line in ending.lines do
    IO.eprintln line.shown
  for line in ending.printed do
    IO.println line
  let old := root.files.map (·.1)
  for (names, content) in ending.root.files do
    match content with
    | .text s => if !old.contains names then keep names s
    | _ => pure ()
  match ending.exit with
  | .ok code => return code.toUInt32
  | .error fault =>
    IO.eprintln fault.message
    return 1

end OptimalAssignment.CommandLine

open OptimalAssignment in
/-- Run the command that the first word names. -/
def main (args : List String) : IO UInt32 := do
  match args with
  | "solve" :: rest => CommandLine.perform Command.Solve.run rest
  | "match_images" :: rest => CommandLine.perform Command.Match.run rest
  | _ =>
    IO.eprintln "usage: (solve | match_images) ARGUMENT..."
    return 2
