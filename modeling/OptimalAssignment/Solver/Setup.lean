import OptimalAssignment.Solver.Session
import OptimalAssignment.Settings.Basic

/-!
Sessions from settings. A ceiling and a finiteness check that are not given come from the settings;
so do the observers, if none are given.
-/
namespace OptimalAssignment

/-- Where a session looks its settings up: nowhere, in settings by dotted keys, or in plain entries
whose keys are taken as they are. -/
inductive Source where
  | nowhere
  | settings (s : Settings)
  | plain (entries : Entries)
deriving Repr

def Source.getD (source : Source) (key : String) (default : Value) : Value :=
  match source with
  | nowhere => default
  | settings s => s.getD key default
  | plain entries => (Entries.find? (.text key) entries).getD default

inductive SetupFault where
  /-- An interval is no number. -/
  | intervalNotNumber
  /-- An interval is not read as a whole number; its literal. -/
  | intervalNotNumeral (literal : String)
  /-- An interval has more digits than are read. -/
  | intervalTooLong (digits : Nat)
  /-- An interval is the undefined float. -/
  | intervalUndefined
  /-- An interval is endless. -/
  | intervalEndless
  /-- The folder of the drawings is no text. -/
  | folderNotText
deriving Repr, DecidableEq

/-- The beginning of a literal, as far as a message shows it. -/
def shownLiteral (literal : String) : String :=
  String.ofList (literal.toList.take 200)

def SetupFault.message : SetupFault → String
  | intervalNotNumeral literal =>
    "invalid literal for int() with base 10: " ++ shownLiteral literal
  | intervalTooLong digits =>
    s!"Exceeds the limit ({Decimal.digitLimit} digits) for integer string conversion: "
      ++ s!"value has {digits} digits; use sys.set_int_max_str_digits() to increase the limit"
  | intervalUndefined => "cannot convert float NaN to integer"
  | _ => ""

/-- Whether a fault is that a value is of a fitting kind but no fitting number. -/
def SetupFault.isUnfitNumber : SetupFault → Bool
  | intervalNotNumeral _ | intervalTooLong _ | intervalUndefined => true
  | intervalNotNumber | intervalEndless | folderNotText => false

/-- The whole number that a text spells; the literal is for the case that there is none. -/
def wholeOfText (s literal : String) : Except SetupFault Int :=
  match Decimal.integer? s, Decimal.excessDigits? s with
  | some n, _ => .ok n
  | none, some digits => .error (.intervalTooLong digits)
  | none, none => .error (.intervalNotNumeral literal)

/-- Bytes as a text; those that are no plain characters become one that no number has. -/
def plainText (bytes : List UInt8) : String :=
  String.ofList (bytes.map fun b => if b < 128 then Char.ofNat b.toNat else '\x00')

/-- The whole part of a value that counts as a number; texts are read. -/
def Value.wholePart : Value → Except SetupFault Int
  | .atom (.truth b) => .ok (if b then 1 else 0)
  | .atom (.integer n) => .ok n
  | .atom (.real x) =>
    match Decimal.decode x with
    | .undefined => .error .intervalUndefined
    | .infinite _ => .error .intervalEndless
    | .finite negative b =>
      let n : Int := b.ratio.floor
      .ok (if negative then -n else n)
  | .atom (.text s) => wholeOfText s (Text.literal s)
  | .atom (.bytes data) => wholeOfText (plainText data) (Text.bytesLiteral data)
  | _ => .error .intervalNotNumber

/-- The side of a cell that a value gives, or what is wrong with it. -/
def Value.cellSide : Value → Except DrawingFault Int
  | .atom (.truth b) => .ok (if b then 1 else 0)
  | .atom (.integer n) => .ok n
  | .atom (.real x) => .error (if x < 0.0 && x.isFinite then .negativeSide else .sideNotWhole)
  | _ => .error .sideNotWhole

namespace Observer

variable {α : Type}

/-- The observer that writes progress lines; an interval below one counts as one. -/
def progressEvery (interval : Value) : Except SetupFault (Observer α) :=
  interval.wholePart.map fun n => progress (max n 1).toNat 0

def drawingsIn (folder cell : Value) : Except SetupFault (Observer α) :=
  match folder with
  | .text s => .ok (drawings (.ofText s) cell.cellSide 0)
  | _ => .error .folderNotText

def fromSource (source : Source) : Except SetupFault (List (Observer α)) := do
  let lines ←
    if (source.getD "logging.enabled" (.truth false)).isTruthy then
      (progressEvery (source.getD "logging.log_interval" (.integer 1))).map ([·])
    else .ok []
  let pictures ←
    if (source.getD "export.enabled" (.truth false)).isTruthy then
      (drawingsIn (source.getD "export.output_dir" (.text "/tmp/hungarian_steps"))
        (source.getD "export.cell_size" (.integer 60))).map ([·])
    else .ok []
  return lines ++ pictures

end Observer

namespace Session

variable {α : Type}

/-- A value, or the one that settings give for a key if it is absent. -/
def orSetting (v : Value) (source : Source) (key : String) (default : Value) : Value :=
  match v with
  | .null => source.getD key default
  | v => v

/-- A session set up from settings and from what is given beside them. -/
def setup (source : Source) (observers : Option (List (Observer α))) (ceiling finite : Value)
    (root : Node) : Except SetupFault (Session α) := do
  let observers ←
    match observers with
    | some observers => .ok observers
    | none => Observer.fromSource source
  return {
    observers
    ceiling := orSetting ceiling source "solver.max_iterations" .null
    finite := (orSetting finite source "solver.check_finite" (.truth true)).isTruthy
    root }

end Session

end OptimalAssignment
