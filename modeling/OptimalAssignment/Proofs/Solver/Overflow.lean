import Mathlib
import OptimalAssignment.Proofs.Solver.Nonfinite

/-!
Costs that overflow. A cell in a row and a column without selected zeros is never covered, so its
value only falls. If the reduction leaves all values finite, such a cell holds every adjustment
finite, however far the covered cells grow; so every run is complete as long as no difference
between two costs of a row exceeds the limit. Where one does, a column can be left without a finite
value, and then no run is complete.
-/
namespace OptimalAssignment

open CostMatrix Matching Line

variable {limit : Option ℚ≥0} {n : Nat}

namespace Work

variable {w w' : Work (Line limit)} {entries : List (Work (Line limit))} {flips : Nat}

/-- Whether the values where neither line holds a selected zero are finite. -/
def Roomy (n : Nat) (w : Work (Line limit)) : Prop :=
  ∀ i < n, ∀ j < n, w.matching.col? i = none → w.matching.row? j = none →
    w.matrix.values.FiniteAt i j

/-- A pass leaves no line without the selected zero that it had. -/
theorem Pass.free_lines (hp : Pass w entries w' flips) (h : w.IsReady n)
    (ho : w.coverage.isOptimal = false) :
    (∀ i, w'.matching.col? i = none → w.matching.col? i = none) ∧
      ∀ j, w'.matching.row? j = none → w.matching.row? j = none := by
  cases hp with
  | cover _ _ eq₁ eq₂ eq₃ =>
    rw [eq₃, eq₂, eq₁]
    exact ⟨fun _ => id, fun _ => id⟩
  | @augment row col last prepared selected m w₁ w₂ w₃ zero free eq₁ chain flip eq₂ eq₃ =>
    have hfound := h.found ho zero
    rw [eq₁] at chain flip
    obtain ⟨hm, -, hcol⟩ := hfound.flip_spec free chain flip
    rw [eq₃]
    constructor
    · intro i hfree
      by_contra hsome
      have hmatched := (isSome_col?_flip hfound.paired chain hcol i).mpr
        (.inr (Option.isSome_iff_ne_none.mpr hsome))
      exact Option.isSome_iff_ne_none.mp hmatched hfree
    · intro j hfree
      by_contra hsome
      have hmatched := (isSome_row?_flip hfound.paired hm chain hcol j).mpr
        (.inr (Option.isSome_iff_ne_none.mpr hsome))
      exact Option.isSome_iff_ne_none.mp hmatched hfree

/-- Lines without a selected zero are uncovered, so they hold the least uncovered value finite. -/
theorem Roomy.isFinite_leastUncovered (hr : w.Roomy n) {c : Coverage}
    (h : Coherent n w.matrix.values w.matching c) (hd : ∃ col < n, w.matching.row? col = none) :
    Scalar.isFinite (leastUncovered c w.matrix.values) = true := by
  obtain ⟨i, hi, hfree⟩ := h.exists_free_row hd
  obtain ⟨j, hj, hfree'⟩ := hd
  exact h.isFinite_leastUncovered (hr i hi j hj hfree hfree') (h.not_coversRow hfree)
    (h.not_coversCol hfree')

theorem Pass.roomy (hp : Pass w entries w' flips) (h : w.IsReady n)
    (ho : w.coverage.isOptimal = false) (hr : w.Roomy n) :
    Respected cost entries ∧ w'.Roomy n := by
  refine ⟨hp.respected fun row col sel zero matched => ?_, fun i hi j hj hfree hfree' => ?_⟩
  · have hfound : (w.found row col).Roomy n := hr
    exact respects (hfound.isFinite_leastUncovered ((h.found ho zero).exchanged matched)
      (h.found ho zero).deficient)
  · have hlines := hp.free_lines h ho
    have hfinite := hr i hi j hj (hlines.1 i hfree) (hlines.2 j hfree')
    cases hp with
    | @cover row col sel w₁ w₂ w₃ zero matched eq₁ eq₂ eq₃ =>
      have hcoherent := (h.found ho zero).exchanged matched
      rw [eq₃, eq₂, eq₁]
      exact hcoherent.finiteAt_shift hfinite (hcoherent.not_coversRow (hlines.1 i hfree))
        (hcoherent.not_coversCol (hlines.2 j hfree'))
    | augment _ _ eq₁ _ _ eq₂ eq₃ =>
      rw [eq₃, eq₂, eq₁]
      exact hfinite

end Work

/-- A reduction that lowers the rows by finite values to finite values leaves all values finite. -/
theorem Work.selected_roomy {g : Grid (Line limit)} (hg : g.IsSquare n)
    (hfinite : ∀ i < n, ∀ j < n, (lowerRows g).FiniteAt i j) :
    (selected g).next.Roomy n := by
  intro i hi j hj _ _
  obtain ⟨x, hx, hx'⟩ := hfinite i hi j hj
  have hsquare := isSquare_lowerRows hg
  obtain ⟨m, hm, hmem, hle⟩ := Grid.exists_colMinimum hsquare hj
  obtain ⟨i₀, hi₀⟩ := Grid.mem_column_iff.mp hmem
  refine ⟨x - m, cell?_lowerCols_eq_some_iff.mpr ⟨x, m, hx, hm, rfl⟩, ?_⟩
  exact isFinite_sub (lowerRows_nonneg hi₀) (hle x (Grid.mem_column_iff.mpr ⟨i, hx⟩)) hx'

/-- If no difference within a row exceeds the limit, neither do the least cost of the row and what
the costs exceed it by. -/
theorem Line.finiteAt_lowerRows {g : Grid (Line limit)} (hg : g.IsSquare n)
    (hspread : ∀ row ∈ g, ∀ x ∈ row, ∀ y ∈ row, Scalar.isFinite (x.cost - y.cost) = true) {i j : Nat}
    (hi : i < n) (hj : j < n) : (lowerRows g).FiniteAt i j := by
  obtain ⟨x, hx⟩ := hg.exists_cell hi hj
  obtain ⟨row, hrow, hxrow⟩ := Grid.cell?_eq_some_iff.mp hx
  have hmem := List.mem_of_getElem? hxrow
  have hdifference := hspread row (List.mem_of_getElem? hrow) x hmem _
    (Scalar.least_mem (List.ne_nil_of_mem hmem))
  refine ⟨_, cell?_lowerRows_eq_some_iff.mpr ⟨row, x, hrow, hxrow, rfl⟩, ?_⟩
  have hsub := (respects (Extended.isFinite_of_sub hdifference).2).map_sub x
  rw [← hsub] at hdifference
  exact hdifference

variable {s : Session (Extended limit)} {table : Table (Extended limit)}
  {g : Grid (Extended limit)}

/-- A session under the standard ceiling solves every table in which no difference between two costs
of one row exceeds the limit. -/
theorem Session.solve_spread (hn : 1 ≤ n) (hg : g.IsSquare n) (ht : table.Holds g)
    (ho : ∀ o ∈ s.observers, o.IsQuiet) (hc : s.ceiling = .null)
    (hspread : ∀ row ∈ g, ∀ x ∈ row, ∀ y ∈ row, Scalar.isFinite (x - y) = true) :
    ∃ (a : Assignment (Extended limit)) (p : Equiv.Perm (Fin n)),
      (s.solve table).2.outcome = .ok a ∧ a.columns = Columns.ofPerm p := by
  have hfinite : ∀ row ∈ g, ∀ x ∈ row, Scalar.isFinite x = true :=
    fun row hrow x hx => (Extended.isFinite_of_sub (hspread row hrow x hx x hx)).1
  have haccept : table.accept s.finite = .ok g := Table.accept_eq ht hn hg fun _ => hfinite
  obtain ⟨g, rfl⟩ := exists_map_eq fun row hrow x hx =>
    Extended.defined_of_isFinite (hfinite row hrow x hx)
  have hsquare : g.IsSquare n := Grid.isSquare_of_map hg
  obtain rfl := hsquare.1
  have hlowered : ∀ i < g.length, ∀ j < g.length, (lowerRows g).FiniteAt i j :=
    fun i hi j hj => finiteAt_lowerRows hsquare (fun row hrow x hx y hy =>
      hspread _ (List.mem_map_of_mem hrow) _ (List.mem_map_of_mem hx) _ (List.mem_map_of_mem hy))
      hi hj
  have hleast : ∀ row ∈ g, Scalar.isFinite (Scalar.least row) = true := by
    intro row hrow
    have hne : row ≠ [] := List.ne_nil_of_length_pos (by rw [hsquare.2 row hrow]; omega)
    exact hfinite _ (List.mem_map_of_mem hrow) _ (List.mem_map_of_mem (Scalar.least_mem hne))
  have hreduce := reduce_cost hsquare hleast fun j hj => ⟨0, hlowered 0 hn j hj⟩
  obtain ⟨-, -, -, -, -, p, a, -, hresult, hcolumns⟩ :=
    Run.solveStandard_map isConversion hreduce hsquare fun _ _ _ _ search =>
      (search.respected (fun _ _ _ _ h ho hp => hp.roomy h ho) (Work.selected_ready hsquare)
        (Work.selected_roomy hsquare hlowered)).1
  refine ⟨a, p, (solve_eq ho haccept ?_).2, hcolumns⟩
  rw [hc]
  exact hresult

namespace Extended

/-- The greatest finite double. -/
def greatestDouble : ℚ≥0 :=
  ((2 ^ 53 - 1) * 2 ^ 971 : ℕ)

/-- A double far above zero. -/
def high : Extended (some greatestDouble) :=
  finite (2 ^ 1023) (by decide +kernel)

/-- A double as far below zero. -/
def low : Extended (some greatestDouble) :=
  finite (-2 ^ 1023) (by decide +kernel)

end Extended

open Extended

theorem Session.solve_spread_two :
    1 ≤ 2 ∧ Grid.IsSquare 2 [[high, 0], [0, low]] ∧
      (∀ row ∈ [[high, 0], [0, low]], ∀ x ∈ row, ∀ y ∈ row, Scalar.isFinite (x - y) = true) ∧
      ∃ (a : Assignment (Extended (some greatestDouble))) (p : Equiv.Perm (Fin 2)),
        (({} : Session (Extended (some greatestDouble))).solve
          (.rows [[high, 0], [0, low]])).2.outcome = .ok a ∧
        a.columns = Columns.ofPerm p := by
  have hsquare : Grid.IsSquare 2 [[high, 0], [0, low]] := by decide
  have hspread : ∀ row ∈ [[high, 0], [0, low]], ∀ x ∈ row, ∀ y ∈ row,
      Scalar.isFinite (x - y) = true := by decide +kernel
  have hsolved := solve_spread (s := ({} : Session (Extended (some greatestDouble)))) one_le_two
    hsquare .rows (by simp) rfl hspread
  exact ⟨one_le_two, hsquare, hspread, hsolved⟩

/-- Every cost is finite and the table is accepted, but the two costs of each row differ by more than
the limit, so lowering the rows leaves nothing finite in the first column. -/
theorem Session.solve_spread_fails :
    1 ≤ 2 ∧ Grid.IsSquare 2 [[high, low], [high, low]] ∧
      (∀ row ∈ [[high, low], [high, low]], ∀ x ∈ row, Scalar.isFinite x = true) ∧
      ∃ words phase snapshot,
        (({} : Session (Extended (some greatestDouble))).solve
          (.rows [[high, low], [high, low]])).2.outcome = .error (.breach words phase snapshot) := by
  have hsquare : Grid.IsSquare 2 [[high, low], [high, low]] := by decide
  have hfinite : ∀ row ∈ [[high, low], [high, low]], ∀ x ∈ row, Scalar.isFinite x = true := by
    decide +kernel
  have hcol : ∀ i < 2, ∀ x ∈ (lowerRows [[high, low], [high, low]]).cell? i 0,
      Scalar.isFinite x = false := by decide +kernel
  have hbreach := breach_of_column (s := ({} : Session (Extended (some greatestDouble)))) hsquare
    (Table.accept_eq .rows one_le_two hsquare fun _ => hfinite) (by simp) rfl two_pos hcol
  exact ⟨one_le_two, hsquare, hfinite, hbreach⟩

end OptimalAssignment
