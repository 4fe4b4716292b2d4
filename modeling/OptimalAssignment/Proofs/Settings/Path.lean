import Mathlib
import OptimalAssignment.Settings.Basic
import OptimalAssignment.Proofs.Text.Splitting

/-!
Paths of keys into settings. A path of names without points is written as one dotted key, and read
back from it; what a dotted key finds is what its names lead to one after the other.
-/
namespace OptimalAssignment

namespace Value

variable {key : Atom} {keys more : List Atom} {names : List String} {v : Value} {es : Entries}

/-- What keys lead to, one after the other. -/
def reach? : List Atom → Value → Option Value
  | [], v => some v
  | key :: keys, table es => (Entries.find? key es).bind (reach? keys)
  | _ :: _, _ => none

@[simp] theorem reach?_nil : v.reach? [] = some v := by
  rw [reach?]

@[simp] theorem reach?_cons_table :
    (table es).reach? (key :: keys) = (Entries.find? key es).bind (reach? keys) := by
  rw [reach?]

theorem reach?_cons (h : v.isSection = false) : v.reach? (key :: keys) = none := by
  cases v <;> simp_all [reach?, isSection]

theorem reach?_append : v.reach? (keys ++ more) = (v.reach? keys).bind (reach? more) := by
  induction keys generalizing v with
  | nil => simp
  | cons key keys ih =>
    cases v with
    | table es =>
      rw [List.cons_append, reach?_cons_table, reach?_cons_table, Option.bind_assoc]
      simp only [ih]
    | _ => rfl

theorem lookup_eq : v.lookup names = v.reach? (names.map .text) := by
  induction names generalizing v with
  | nil => cases v <;> rfl
  | cons name names ih =>
    cases v with
    | table es =>
      rw [lookup, List.map_cons, reach?_cons_table]
      simp only [ih]
    | _ => rfl

end Value

/-! ### Dotted keys -/

/-- A path as it is written in one key. -/
def dotted (names : List String) : String :=
  ".".intercalate names

/-- Whether names can be written as one key: there are some, and none has a point. -/
structure IsPath (names : List String) : Prop where
  ne_nil : names ≠ []
  no_point : ∀ name ∈ names, '.' ∉ name.toList

theorem pathNames_dotted {names : List String} (h : IsPath names) :
    pathNames (dotted names) = names :=
  Text.splitOn_intercalate h.ne_nil h.no_point

theorem IsPath.left {init rest : List String} (h : IsPath (init ++ rest)) (hinit : init ≠ []) :
    IsPath init :=
  ⟨hinit, fun _ hname => h.no_point _ (List.mem_append_left rest hname)⟩

theorem pathNames_ne_nil {key : String} : pathNames key ≠ [] :=
  Text.splitOn_ne_nil key '.'

theorem exists_pathNames_eq (key : String) : ∃ names last, pathNames key = names ++ [last] :=
  (pathNames key).eq_nil_or_concat'.resolve_left pathNames_ne_nil

namespace Settings

variable {s : Settings} {names : List String}

theorem get?_eq {key : String} :
    s.get? key = (Value.table s.entries).reach? ((pathNames key).map .text) :=
  Value.lookup_eq

theorem get?_dotted (h : IsPath names) :
    s.get? (dotted names) = (Value.table s.entries).reach? (names.map .text) := by
  rw [get?_eq, pathNames_dotted h]

end Settings

end OptimalAssignment
