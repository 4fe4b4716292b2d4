import OptimalAssignment.Files.Search
import OptimalAssignment.Text.Character

/-!
The manifest of the package: what its folder says about it. The long description is the text of the
read-me file; the requirements are the lines of their file that are neither blank nor comments; the
packages are the folders with an initial module, save those for tests and tools.
-/
namespace OptimalAssignment

structure Manifest where
  name : String
  version : String
  author : String
  description : String
  longDescription : String
  longDescriptionType : String
  packages : List String
  classifiers : List String
  /-- The versions of the language that the package runs on. -/
  languageVersions : String
  requirements : List String
  /-- Further requirements under the name of the use that needs them. -/
  extras : List (String × List String)
deriving Repr, DecidableEq

namespace Manifest

/-- The requirements that a text lists, one to a line. A line that starts with a number sign is a
comment; an indented one is not. -/
def requirementsOf (s : String) : List String :=
  (s.splitOn "\n").filterMap fun line =>
    let kept := Text.trim line.toList
    if kept.isEmpty || line.startsWith "#" then none else some (String.ofList kept)

def isPackage (entries : List (String × Node)) : Bool :=
  match entries.lookup "__init__.py" with
  | some (.file _) => true
  | _ => false

mutual

/-- The dotted names of a package and of all packages below it, given the names on the way. -/
def packagesAt (way : List String) : Node → List String
  | .file _ => []
  | .folder es =>
    if isPackage es then String.intercalate "." way :: packagesIn way es else []

/-- The dotted names of all packages among entries and below them. A folder with a point in its name
is no package. -/
def packagesIn (way : List String) : List (String × Node) → List String
  | [] => []
  | (name, node) :: es =>
    (if name.toList.contains '.' then [] else packagesAt (way ++ [name]) node) ++ packagesIn way es

end

def excluded : List String :=
  ["tests", "tests.*", "tools"]

/-- The packages in a folder that are published, in order. What lies below an excluded package is
excluded only if it fits one of the patterns itself. -/
def packagesOf (root : Node) : List String :=
  ((packagesIn [] root.entries).filter fun name =>
    !excluded.any (Text.fitsPattern · name)).mergeSort (· ≤ ·)

def ofFolder (root : Node) : Except FileFault Manifest := do
  let longDescription ← root.readText (.ofText "README.md")
  let requirements ← root.readText (.ofText "requirements.txt")
  return {
    name := "kuhnmunkres"
    version := "0.1.0"
    author := "kuhnmunkres developers"
    description := "Exact Hungarian-method solver for square assignment problems"
    longDescription
    longDescriptionType := "text/markdown"
    packages := packagesOf root
    classifiers := [
      "Development Status :: 3 - Alpha",
      "Intended Audience :: Developers",
      "Intended Audience :: Science/Research",
      "License :: OSI Approved :: MIT License",
      "Programming Language :: Python :: 3",
      "Topic :: Scientific/Engineering :: Mathematics"]
    languageVersions := ">=3.8"
    requirements := requirementsOf requirements
    extras := [("dev", ["black>=23.0.0", "flake8>=6.0.0", "mypy>=1.4.0", "pytest>=7.4.0"])] }

end Manifest

end OptimalAssignment
