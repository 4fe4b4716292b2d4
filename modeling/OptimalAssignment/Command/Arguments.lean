import OptimalAssignment.Decimal.Read

/-!
Arguments of a command. A word that begins with a hyphen names an option, in full or by a beginning
that only one option has; its value may follow an equals sign. Other words are values of the option
before them. Negative numbers and words with a blank are values in spite of their hyphen, and after
two hyphens alone no word names an option.
-/
namespace OptimalAssignment.Command

inductive Arity where
  /-- None: the option asks for help. -/
  | help
  | one
  /-- As many as follow. -/
  | many
deriving Repr, DecidableEq

structure Switch where
  name : String
  arity : Arity
deriving Repr, DecidableEq

inductive UsageFault where
  /-- Help was asked for. -/
  | help
  /-- A word is the beginning of several options. -/
  | ambiguous (word : String)
  | missingValue (option : String)
  /-- An option that takes no value was given one. -/
  | needlessValue (option : String)
  /-- The value of an option is no whole number. -/
  | notInteger (option : String)
  /-- Two options do not go together. -/
  | conflict (option : String)
  /-- An option that has to be there is not. -/
  | absent (option : String)
  /-- Some words belong to no option. -/
  | leftOver
deriving Repr, DecidableEq

def UsageFault.exitCode : UsageFault → Nat
  | help => 0
  | _ => 2

inductive Word where
  | value (s : String)
  /-- An option with the value that came in the same word. -/
  | option (o : Switch) (given : Option String)
  /-- A word that belongs to no option. -/
  | stray
deriving Repr, DecidableEq

namespace Word

/-- Whether a word is a negative number: digits, or a point with digits after it. -/
def isNegativeNumber (word : String) : Bool :=
  let isDigit (c : Char) : Bool := (Text.digitValue? c).isSome
  match word.toList with
  | '-' :: cs =>
    let cs := if cs.getLast? = some '\n' then cs.dropLast else cs
    match cs.dropWhile isDigit with
    | [] => !cs.isEmpty
    | '.' :: places => !places.isEmpty && places.all isDigit
    | _ => false
  | _ => false

def cut (word : String) : String × Option String :=
  match word.splitOn "=" with
  | first :: second :: rest => (first, some (String.intercalate "=" (second :: rest)))
  | _ => (word, none)

/-- The options that a word may stand for when it is no full name, each with the value that comes
with it. -/
def candidates (options : List Switch) (word : String) : List (Switch × Option String) :=
  if word.startsWith "--" then
    let (start, given) := cut word
    (options.filter (·.name.startsWith start)).map (·, given)
  else
    let short := String.ofList (word.toList.take 2)
    options.filterMap fun o =>
      if o.name = short then some (o, some (String.ofList (word.toList.drop 2)))
      else if o.name.startsWith word then some (o, none)
      else none

/-- What a word that is no full name of an option is. -/
def ofPartial (options : List Switch) (word : String) : Except UsageFault Word :=
  match candidates options word with
  | [(o, given)] => .ok (option o given)
  | _ :: _ :: _ => .error (.ambiguous word)
  | [] =>
    if isNegativeNumber word || word.toList.contains ' ' then .ok (value word) else .ok stray

def named? (options : List Switch) (name : String) : Option Switch :=
  options.find? (·.name = name)

def ofText (options : List Switch) (word : String) : Except UsageFault Word :=
  if !word.startsWith "-" || word = "-" then .ok (value word)
  else
    match named? options word, cut word with
    | some o, _ => .ok (option o none)
    | none, (start, some given) =>
      match named? options start with
      | some o => .ok (option o (some given))
      | none => ofPartial options word
    | none, (_, none) => ofPartial options word

/-- What the words of a command are; none of those after two hyphens belongs to an option. -/
def ofTexts (options : List Switch) : List String → Except UsageFault (List Word)
  | [] => .ok []
  | "--" :: rest => .ok (stray :: rest.map fun _ => stray)
  | word :: rest => do return (← ofText options word) :: (← ofTexts options rest)

def leadingValues : List Word → List String
  | value s :: words => s :: leadingValues words
  | _ => []

end Word

/-- Give every option its values, in the order of the words, by a function that takes them up one
option after the other. -/
def takeUp {σ : Type} (take : σ → String → List String → Except UsageFault σ) :
    σ → Bool → List Word → Except UsageFault σ
  | s, leftOver, [] => if leftOver then .error .leftOver else .ok s
  | s, leftOver, .option o given :: words =>
    match o.arity, given with
    | .help, none => .error .help
    | .help, some _ => .error (if o.name.startsWith "--" then .needlessValue o.name else .help)
    | _, some v => do takeUp take (← take s o.name [v]) leftOver words
    | .one, none =>
      match words with
      | .value v :: words => do takeUp take (← take s o.name [v]) leftOver words
      | _ => .error (.missingValue o.name)
    | .many, none => do
      let values := Word.leadingValues words
      takeUp take (← take s o.name values) leftOver (words.drop values.length)
  | s, _, .value _ :: words => takeUp take s true words
  | s, _, .stray :: words => takeUp take s true words
termination_by _ _ words => words.length

def helpOptions : List Switch :=
  [⟨"-h", .help⟩, ⟨"--help", .help⟩]

/-- Read the arguments of a command with certain options, starting from a state in which no option
has been given. -/
def readArguments {σ : Type} (options : List Switch)
    (take : σ → String → List String → Except UsageFault σ) (start : σ) (args : List String) :
    Except UsageFault σ := do
  takeUp take start false (← Word.ofTexts (helpOptions ++ options) args)

def integerOf (option : String) (v : String) : Except UsageFault Int :=
  match Decimal.integer? v with
  | some n => .ok n
  | none => .error (.notInteger option)

end OptimalAssignment.Command
