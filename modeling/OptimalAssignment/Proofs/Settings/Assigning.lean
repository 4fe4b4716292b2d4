import Mathlib
import OptimalAssignment.Proofs.Settings.Entries
import OptimalAssignment.Proofs.Settings.Path

/-!
A value set at a path. Afterwards the path finds the value, a longer path looks into the value, a
shorter one finds a section, and any other path finds what it found before.
-/
namespace OptimalAssignment

variable {name : String} {names init rest : List String} {key : Atom} {keys more : List Atom}
  {v : Value} {es : Entries}

namespace Value

theorem reach?_entries : (table v.entries).reach? (key :: keys) = v.reach? (key :: keys) := by
  cases v <;> rfl

end Value

namespace Entries

open Value

/-- Set the value at a path. Tables are made on the way, in place of what stands there if it is no
table. -/
def setAt : List String → Value → Entries → Entries
  | [], _, es => es
  | [name], v, es => put (.text name) v es
  | name :: names, v, es =>
    let inner := ((find? (.text name) es).map Value.entries).getD []
    put (.text name) (.table (setAt names v inner)) es

theorem find?_put_text : find? key (put (.text name) v es) =
    if (Atom.text name).same key then some v else find? key es :=
  Keyed.find?_put_text

theorem setAt_singleton : setAt [name] v es = put (.text name) v es := by
  rw [setAt]

theorem setAt_cons (h : names ≠ []) : setAt (name :: names) v es =
    put (.text name) (.table (setAt names v (((find? (.text name) es).map Value.entries).getD [])))
      es := by
  rw [setAt]
  exact h

theorem reach?_put_text : (table (put (.text name) v es)).reach? (.text name :: keys) =
    v.reach? keys := by
  simp [find?_put_text]

theorem reach?_setAt_append (h : names ≠ []) :
    (table (setAt names v es)).reach? (names.map .text ++ more) = v.reach? more := by
  induction names generalizing es with
  | nil => contradiction
  | cons name names ih =>
    rw [List.map_cons, List.cons_append]
    by_cases hnames : names = []
    · subst hnames
      rw [setAt_singleton, reach?_put_text, List.map_nil, List.nil_append]
    · rw [setAt_cons hnames, reach?_put_text, ih hnames]

theorem exists_reach?_setAt (h : rest ≠ []) :
    ∃ inner, (table (setAt (init ++ rest) v es)).reach? (init.map .text) = some (table inner) := by
  induction init generalizing es with
  | nil => exact ⟨setAt rest v es, by simp⟩
  | cons name init ih =>
    have hnames : init ++ rest ≠ [] := by simp [h]
    rw [List.cons_append, setAt_cons hnames, List.map_cons, reach?_put_text]
    exact ih

theorem reach?_setAt_of_apart (hlong : ¬ names.map .text <+: keys)
    (hshort : ¬ keys <+: names.map .text) :
    (table (setAt names v es)).reach? keys = (table es).reach? keys := by
  induction names generalizing es keys with
  | nil => simp at hlong
  | cons name names ih =>
    obtain _ | ⟨key, keys⟩ := keys
    · simp at hshort
    rw [List.map_cons, List.cons_prefix_cons] at hlong hshort
    by_cases hname : (Atom.text name).same key
    · obtain rfl := Atom.text_same_iff.mp hname
      have hlong' : ¬ names.map .text <+: keys := fun hprefix => hlong ⟨rfl, hprefix⟩
      have hshort' : ¬ keys <+: names.map .text := fun hprefix => hshort ⟨rfl, hprefix⟩
      have hnames : names ≠ [] := by
        rintro rfl
        simp at hlong'
      obtain _ | ⟨next, keys⟩ := keys
      · simp at hshort'
      rw [setAt_cons hnames, reach?_put_text, ih hlong' hshort']
      change _ = (find? (.text name) es).bind (reach? (next :: keys))
      cases find? (.text name) es with
      | none => rfl
      | some old => exact reach?_entries
    · by_cases hnames : names = []
      · subst hnames
        rw [setAt_singleton, reach?_cons_table, find?_put_text, if_neg hname, reach?_cons_table]
      · rw [setAt_cons hnames, reach?_cons_table, find?_put_text, if_neg hname, reach?_cons_table]

end Entries

namespace Settings

/-- Set the value of a dotted key. -/
def set (s : Settings) (key : String) (v : Value) : Settings :=
  ⟨Entries.setAt (pathNames key) v s.entries⟩

/-- Set dotted keys one after the other. -/
def apply (s : Settings) (overrides : List (String × Value)) : Settings :=
  overrides.foldl (fun s (key, v) => s.set key v) s

end Settings

end OptimalAssignment
