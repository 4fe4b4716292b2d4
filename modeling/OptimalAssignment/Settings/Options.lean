import OptimalAssignment.Settings.Basic
import OptimalAssignment.Yaml.Content

/-!
Options: texts of the form `key=value` that override settings. Everything up to the first equals
sign is the key; an empty value is nothing. A key that comes again keeps its first place and takes
its last value.
-/
namespace OptimalAssignment.Settings

inductive OptionFault where
  /-- An option has no equals sign. -/
  | noEquals (option : String)
  /-- A value cannot be read. -/
  | unreadable (fault : Yaml.YamlFault)
deriving Repr, DecidableEq

def OptionFault.message : OptionFault → String
  | noEquals option => s!"Invalid option format: {option}. Use key=value format."
  | unreadable _ => ""

/-- The key and the value of an option, when values are read in a given way. -/
def optionParts {α : Type} (nothing : α) (read : String → Except Yaml.YamlFault α)
    (option : String) : Except OptionFault (String × α) :=
  match option.splitOn "=" with
  | key :: first :: rest =>
    let text := String.intercalate "=" (first :: rest)
    if text.isEmpty then .ok (key, nothing)
    else
      match read text with
      | .ok v => .ok (key, v)
      | .error fault => .error (.unreadable fault)
  | _ => .error (.noEquals option)

/-- The overrides that options spell, when values are read in a given way. -/
def overridesWith {α : Type} (nothing : α) (read : String → Except Yaml.YamlFault α)
    (options : List String) : Except OptionFault (List (String × α)) :=
  options.foldlM (fun overrides option => do
    let (key, v) ← optionParts nothing read option
    return Named.put key v overrides) []

def overrides (options : List String) : Except OptionFault (List (String × Value)) :=
  overridesWith .null Yaml.read options

/-- The overrides that options spell, with what is shared within each value. -/
def sharedOverrides (options : List String) :
    Except OptionFault (List (String × Value × Sharing)) :=
  overridesWith (.null, []) Yaml.readShared options

end OptimalAssignment.Settings
