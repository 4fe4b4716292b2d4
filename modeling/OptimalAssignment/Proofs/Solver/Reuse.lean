import Mathlib
import OptimalAssignment.Proofs.Cost.Extended
import OptimalAssignment.Proofs.Solver.Session

/-!
Sessions used for one table after the other. A table that is accepted is solved as if the session
had never been used, and one that is rejected leaves the session as it is. So whatever came before,
and however it ended, each report is the report of a new session, and what is left at the end are
the traces of the last table that was accepted.
-/
namespace OptimalAssignment.Session

open Observer

variable {α : Type}

/-- The session before its first use: observers that have seen nothing, and no data of a run. -/
def renewed (s : Session α) : Session α :=
  { s with observers := s.observers.map (shown []), work := none }

theorem finite_of_renewed {s t : Session α} (h : t.renewed = s.renewed) : t.finite = s.finite := by
  have hfinite : t.renewed.finite = s.renewed.finite := by rw [h]
  exact hfinite

variable [Scalar α] [Legible α] {s : Session α} {table : Table α} {tables : List (Table α)}
variable {g : Grid α} {reason : Rejection}

theorem solve_rejected (ht : table.accept s.finite = .error reason) :
    s.solve table = (s, ⟨[], .error (.rejected reason)⟩) := by
  rw [solve, ht]

theorem solveAll_append (s : Session α) (xs ys : List (Table α)) :
    (s.solveAll (xs ++ ys)).1 = ((s.solveAll xs).1.solveAll ys).1 := by
  induction xs generalizing s with
  | nil => rfl
  | cons table xs ih => exact ih (s.solve table).1

theorem solveAll_rejected (hr : ∀ table ∈ tables, ∃ reason, table.accept s.finite = .error reason) :
    (s.solveAll tables).1 = s := by
  induction tables with
  | nil => rfl
  | cons table tables ih =>
    obtain ⟨⟨reason, ht⟩, hrest⟩ := List.forall_mem_cons.mp hr
    rw [solveAll, solve_rejected ht]
    exact ih hrest

section Chroniclers

variable (hc : ∀ o ∈ s.observers, o.IsChronicler)
include hc

/-- An accepted table is solved as by a session that was never used. -/
theorem solve_renewed (ht : table.accept s.finite = .ok g) :
    s.renewed.solve table = s.solve table := by
  have hbegin : beginAll (Work.start g) s.root s.renewed.observers =
      beginAll (Work.start g) s.root s.observers := by
    have hc' : ∀ o ∈ s.renewed.observers, o.IsChronicler := isChronicler_map_shown hc []
    rw [beginAll_eq hc, beginAll_eq hc', renewed, map_shown_shown]
  have ht' : table.accept s.renewed.finite = .ok g := ht
  have hroot : s.renewed.root = s.root := rfl
  simp only [solve, ht, ht', solveGrid, hroot, hbegin, beginAll_eq hc]
  rfl

theorem report_renewed (table : Table α) : (s.renewed.solve table).2 = (s.solve table).2 := by
  cases ht : table.accept s.finite with
  | error reason => rw [solve_rejected ht, solve_rejected (s := s.renewed) ht]
  | ok g => rw [solve_renewed hc ht]

/-- Solving a table leaves the observers the same but for what they have seen. -/
theorem solve_fst (table : Table α) :
    (s.solve table).1.renewed = s.renewed ∧
      ∀ o ∈ (s.solve table).1.observers, o.IsChronicler := by
  cases ht : table.accept s.finite with
  | error reason =>
    rw [solve_rejected ht]
    exact ⟨rfl, hc⟩
  | ok g =>
    obtain ⟨hsession, -⟩ := solve_of_chroniclers hc ht rfl
    rw [hsession]
    refine ⟨?_, isChronicler_map_shown hc _⟩
    simp only [renewed, map_shown_shown]

theorem solveAll_fst (tables : List (Table α)) :
    (s.solveAll tables).1.renewed = s.renewed ∧
      ∀ o ∈ (s.solveAll tables).1.observers, o.IsChronicler := by
  induction tables generalizing s with
  | nil => exact ⟨rfl, hc⟩
  | cons table tables ih =>
    obtain ⟨hrenewed, hc'⟩ := solve_fst hc table
    obtain ⟨hlast, hlast'⟩ := ih hc'
    exact ⟨hlast.trans hrenewed, hlast'⟩

theorem solveAll_reports (tables : List (Table α)) :
    (s.solveAll tables).2 = tables.map fun table => (s.renewed.solve table).2 := by
  induction tables generalizing s with
  | nil => rfl
  | cons table tables ih =>
    obtain ⟨hrenewed, hc'⟩ := solve_fst hc table
    have hrest := ih hc'
    rw [hrenewed] at hrest
    rw [List.map_cons, report_renewed hc, ← hrest]
    rfl

end Chroniclers

/-- Reuse leaks nothing. Whatever tables a session was used for, and however that ended, each report
is that of a session that was never used; a table that is rejected leaves the session as it was; and
in the end the session is what the last accepted table makes of one that was never used, with
observers that were shown the snapshots of that one run. -/
theorem solveAll_reuse (hc : ∀ o ∈ s.observers, o.IsChronicler) (tables : List (Table α)) :
    (s.solveAll tables).2 = tables.map (fun table => (s.renewed.solve table).2) ∧
    (∀ before table reason, table.accept s.finite = .error reason →
      (s.solveAll (before ++ [table])).1 = (s.solveAll before).1) ∧
    ((∀ table ∈ tables, ∃ reason, table.accept s.finite = .error reason) →
      (s.solveAll tables).1 = s) ∧
    ∀ before table after g, tables = before ++ table :: after → table.accept s.finite = .ok g →
      (∀ later ∈ after, ∃ reason, later.accept s.finite = .error reason) →
      (s.solveAll tables).1 = (s.renewed.solve table).1 ∧
      (s.solveAll tables).1.observers =
        s.observers.map (shown (Run.solve (.ofValue g.length s.ceiling) g).snapshots) := by
  refine ⟨solveAll_reports hc tables, ?_, solveAll_rejected, ?_⟩
  · intro before table reason ht
    rw [← finite_of_renewed (solveAll_fst hc before).1] at ht
    rw [solveAll_append, solveAll, solve_rejected ht]
    rfl
  · rintro before table after g rfl ht hafter
    obtain ⟨hrenewed, hc'⟩ := solveAll_fst hc before
    obtain ⟨hsolved, -⟩ := solve_fst hc' table
    have ht' : table.accept (s.solveAll before).1.finite = .ok g := by
      rw [finite_of_renewed hrenewed]
      exact ht
    have hlast : (((s.solveAll before).1.solve table).1.solveAll after).1 =
        ((s.solveAll before).1.solve table).1 := by
      refine solveAll_rejected fun later hlater => ?_
      rw [finite_of_renewed (hsolved.trans hrenewed)]
      exact hafter later hlater
    have hend : (s.solveAll (before ++ table :: after)).1 = (s.renewed.solve table).1 := by
      rw [solveAll_append, solveAll, hlast, ← solve_renewed hc' ht', hrenewed]
    refine ⟨hend, ?_⟩
    rw [hend, solve_renewed hc ht, (solve_of_chroniclers hc ht rfl).1]

/-- A session under the ceiling 0 runs into it, is handed a ragged table, solves one that needs no
pass, and is handed a cost that is not finite. -/
theorem solveAll_reuse_four :
    ∃ (s : Session (Extended none)) (high ragged low infinite : Table (Extended none)),
      s = { observers := [.recorder [], .progress 1 7], ceiling := .atom (.integer 0) } ∧
      high = .rows [[.clip 1, .clip 2, .clip 3], [.clip 2, .clip 4, .clip 6],
        [.clip 3, .clip 6, .clip 9]] ∧
      ragged = .rows [[.clip 1, .clip 2], [.clip 2]] ∧
      low = .rows [[.clip 1, .clip 2], [.clip 2, .clip 4]] ∧
      infinite = .rows [[.clip 1, .above], [.clip 2, .clip 4]] ∧
      (∀ o ∈ s.observers, o.IsChronicler) ∧
      (∃ g, high.accept s.finite = .ok g) ∧ (∃ g, low.accept s.finite = .ok g) ∧
      ragged.accept s.finite = .error (.rowLength 1 1 2) ∧
      infinite.accept s.finite = .error .notFinite ∧
      (s.solveAll [high, ragged, low, infinite]).2.map (·.outcome.isOk) =
        [false, false, true, false] ∧
      (s.solveAll [high, ragged, low, infinite]).1 = (s.renewed.solve low).1 := by
  refine ⟨{ observers := [.recorder [], .progress 1 7], ceiling := .atom (.integer 0) },
    _, _, _, _, rfl, rfl, rfl, rfl, rfl, ?_⟩
  have hc : ∀ o ∈ [.recorder [], (.progress 1 7 : Observer (Extended none))], o.IsChronicler := by
    simp [IsChronicler]
  have hok : Table.accept true (.rows [[.clip 1, .clip 2], [.clip 2, (.clip 4 : Extended none)]]) =
      .ok [[.clip 1, .clip 2], [.clip 2, .clip 4]] := rfl
  have hinfinite : Table.accept true
      (.rows [[.clip 1, .above], [.clip 2, (.clip 4 : Extended none)]]) = .error .notFinite := rfl
  obtain ⟨hreports, -, -, hlast⟩ := solveAll_reuse
    (s := { observers := [.recorder [], .progress 1 7], ceiling := .atom (.integer 0) }) hc
    [.rows [[.clip 1, .clip 2, .clip 3], [.clip 2, .clip 4, .clip 6], [.clip 3, .clip 6, .clip 9]],
      .rows [[.clip 1, .clip 2], [.clip 2]], .rows [[.clip 1, .clip 2], [.clip 2, .clip 4]],
      .rows [[.clip 1, .above], [.clip 2, .clip 4]]]
  refine ⟨hc, ⟨_, rfl⟩, ⟨_, hok⟩, rfl, hinfinite, by rw [hreports]; decide +kernel,
    (hlast (_ :: _ :: []) _ _ _ rfl hok fun later hlater => ?_).1⟩
  rw [List.mem_singleton.mp hlater]
  exact ⟨_, hinfinite⟩

end OptimalAssignment.Session
