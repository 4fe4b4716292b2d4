import Mathlib
import OptimalAssignment.Proofs.Cost.Extended
import OptimalAssignment.Proofs.Solver.Conversion

/-!
Searches among costs with infinities. What is not finite stays so, and a zero is finite; so if a run
returns a permutation, the reduced values that it picks are finite, and no row holds a cost that
sinks its minimum. The other way round, a run whose minima and adjustments are all finite goes as it
would over the lawful costs without the undefined one.
-/
namespace OptimalAssignment

open CostMatrix Matching

/-- Whether a grid has a finite value in a cell. -/
def Grid.FiniteAt {α : Type} [Scalar α] (g : Grid α) (i j : Nat) : Prop :=
  ∃ x, g.cell? i j = some x ∧ Scalar.isFinite x = true

section Extended

variable {limit : Option ℚ≥0} {n i j : Nat} {g v : Grid (Extended limit)} {c : Coverage}

/-! ### What is not finite stays so -/

theorem CostMatrix.finiteAt_of_shift (hg : g.IsSquare n) (hc : c.Fits n)
    {least : Extended limit} (h : (shift c least g).FiniteAt i j) : g.FiniteAt i j := by
  obtain ⟨y, hy, hfinite⟩ := h
  obtain ⟨x, hx, rfl⟩ := (cell?_shift_eq_some_iff hg hc).mp hy
  refine ⟨x, hx, ?_⟩
  rw [moved] at hfinite
  split_ifs at hfinite
  · exact (Extended.isFinite_of_add hfinite).1
  · exact hfinite
  · exact (Extended.isFinite_of_sub hfinite).1

/-- A reduced value is finite only if the cost is and the least cost of its row. -/
theorem CostMatrix.finiteAt_of_reduce (h : (ofGrid g).reduce.1.values.FiniteAt i j) :
    g.FiniteAt i j ∧ ∃ row, g[i]? = some row ∧ Scalar.isFinite (Scalar.least row) = true := by
  obtain ⟨z, hz, hfinite⟩ := h
  obtain ⟨y, m, hy, -, rfl⟩ := cell?_lowerCols_eq_some_iff.mp hz
  obtain ⟨row, x, hrow, hx, rfl⟩ := cell?_lowerRows_eq_some_iff.mp hy
  obtain ⟨hx', hleast⟩ := Extended.isFinite_of_sub (Extended.isFinite_of_sub hfinite).1
  exact ⟨⟨x, Grid.cell?_eq_some_iff.mpr ⟨row, hrow, hx⟩, hx'⟩, row, hrow, hleast⟩

namespace Work

variable {w w' : Work (Extended limit)} {entries : List (Work (Extended limit))} {flips : Nat}

/-- Whether the finite values, the selected and the prepared cells all lie where a grid is
finite. -/
structure Confined (v : Grid (Extended limit)) (w : Work (Extended limit)) : Prop where
  kept : ∀ i j, w.matrix.values.FiniteAt i j → v.FiniteAt i j
  selected : ∀ i j, w.matching.col? i = some j → v.FiniteAt i j
  prepared : ∀ i j, w.matching.mark? i = some j → v.FiniteAt i j

theorem Confined.lowered (hc : w.Confined v) (h : w.Aligned n) : w.lowered.next.Confined v where
  kept i j hf := hc.kept i j (finiteAt_of_shift h.square h.ready.fits hf)
  selected := hc.selected
  prepared := hc.prepared

/-- The zero found is finite, so it is prepared where the grid is. -/
theorem Confined.found {row col : Nat} (hc : w.Confined v) (h : w.Aligned n)
    (hz : uncoveredZero? w.coverage w.matrix.values = some (row, col)) :
    (w.found row col).next.Confined v where
  kept := hc.kept
  selected := hc.selected
  prepared i j hm := by
    obtain ⟨x, hx, hzero, -⟩ := exists_of_uncoveredZero? h.square h.ready.fits hz
    have hmark := (h.ready.paired.mark?_marked (h.square.lt_of_cell? hx).1 i).symm.trans hm
    split at hmark
    · rename_i he
      rw [he, ← Option.some.inj hmark]
      exact hc.kept row col ⟨x, hx, Extended.isFinite_of_isZero hzero⟩
    · exact hc.prepared i j hmark

theorem Pass.confined (hp : Pass w entries w' flips) (h : w.Aligned n)
    (ho : w.coverage.isOptimal = false) (hc : w.Confined v) : w'.Confined v := by
  cases hp with
  | @cover row col sel w₁ w₂ w₃ zero matched eq₁ eq₂ eq₃ =>
    have hfits := ((h.found ho zero).exchanged matched).fits
    have hfound := hc.found h zero
    rw [eq₃, eq₂, eq₁]
    exact
      { kept := fun i j hf => hc.kept i j (finiteAt_of_shift h.square hfits hf)
        selected := hfound.selected
        prepared := hfound.prepared }
  | @augment row col last prepared selected m w₁ w₂ w₃ zero free eq₁ chain flip eq₂ eq₃ =>
    have hfound := hc.found h zero
    rw [eq₁] at chain flip
    obtain ⟨-, hmarks, hcol⟩ := (h.found ho zero).flip_spec free chain flip
    rw [eq₃, eq₂, eq₁]
    refine ⟨hc.kept, fun i j hs => ?_, fun i j hm => ?_⟩
    · rcases (hcol i j).mp hs with hmem | ⟨hs, -⟩
      · rcases List.mem_cons.mp hmem with he | hmem
        · obtain ⟨rfl, rfl⟩ := Prod.mk.inj he
          exact hfound.prepared i j (h.found ho zero).marked
        · exact hfound.prepared i j (chain.mark?_of_mem hmem)
      · exact hc.selected i j hs
    · have hmark := (hmarks i).symm.trans hm
      contradiction

theorem Turn.confined (ht : Turn w w') (h : w.Aligned n) (hc : w.Confined v) : w'.Confined v := by
  cases ht with
  | pass incomplete step => exact step.confined h incomplete hc
  | adjust => exact hc.lowered h

theorem Confined.turns (hc : w.Confined v) (h : w.Aligned n)
    (ht : Relation.ReflTransGen Turn w w') : w'.Confined v := by
  induction ht with
  | refl => exact hc
  | tail before last ih => exact last.confined (h.turns before) ih

end Work

/-- The permutation that a run returns picks finite reduced values. -/
theorem Run.finiteAt_of_ok (hg : g.IsSquare g.length) {ceiling : Ceiling}
    {a : Assignment (Extended limit)} (h : (solve ceiling g).result = .ok a) :
    ∃ p : Equiv.Perm (Fin g.length), a.columns = Columns.ofPerm p ∧
      ∀ i : Fin g.length, (ofGrid g).reduce.1.values.FiniteAt i (p i) := by
  have hending := solve_ending hg ceiling
  rw [h] at hending
  cases hending with
  | @complete w p a fruitful turns matched columns_eq =>
    have hopened := opened_of_rows hg fruitful
    have hselected : (Work.selected g).next.Confined (ofGrid g).reduce.1.values := by
      refine ⟨fun _ _ => id, fun i j hs => ?_, fun i j hm => ?_⟩
      · obtain ⟨x, hx, hzero⟩ := zeroMask_eq_some_iff.mp (hopened.selected i j hs)
        exact ⟨x, hx, Extended.isFinite_of_isZero hzero⟩
      · have hmark := (hopened.marks i).symm.trans hm
        contradiction
    have hlast := hselected.turns hopened.aligned turns
    exact ⟨p, columns_eq, fun i => hlast.selected i (p i) (matched i)⟩

/-- No cost of a grid for which a run returns a permutation sinks the minimum of its row. -/
theorem Run.not_sinks_of_ok (hg : g.IsSquare g.length) {ceiling : Ceiling}
    {a : Assignment (Extended limit)} (h : (solve ceiling g).result = .ok a) :
    ∀ row ∈ g, ∀ x ∈ row, ¬ x.Sinks := by
  obtain ⟨p, -, hfinite⟩ := finiteAt_of_ok hg h
  intro row hrow x hx hsinks
  obtain ⟨i, hi⟩ := List.mem_iff_getElem?.mp hrow
  have hlt : i < g.length := (List.getElem?_eq_some_iff.mp hi).1
  obtain ⟨-, row', hrow', hleast⟩ := finiteAt_of_reduce (hfinite ⟨i, hlt⟩)
  obtain rfl := Option.some.inj (hi.symm.trans hrow')
  rw [(Extended.sinks_least hx hsinks).isFinite_eq_false] at hleast
  contradiction

end Extended

/-! ### Runs that stay finite -/

section Line

open Line

variable {limit : Option ℚ≥0} {n i j : Nat} {g : Grid (Line limit)} {m : Matching Nat}
variable {c : Coverage}

/-- The minimum of a column is finite if any value of it is, once the rows are lowered. -/
theorem Line.isFinite_colMinimum {x : Line limit} (hg : g.IsSquare n)
    (hcol : ∃ i, (lowerRows g).FiniteAt i j) (hj : (Grid.colMinima (lowerRows g))[j]? = some x) :
    Scalar.isFinite x = true := by
  obtain ⟨hmem, hle⟩ := Grid.colMinima_spec (isSquare_lowerRows hg) hj
  obtain ⟨i₀, hi₀⟩ := Grid.mem_column_iff.mp hmem
  obtain ⟨i, y, hy, hfinite⟩ := hcol
  exact isFinite_of_le (not_sinks_of_nonneg (lowerRows_nonneg hi₀))
    (hle y (Grid.mem_column_iff.mpr ⟨i, hy⟩)) hfinite

/-- A reduction whose minima are finite. -/
theorem Line.reduce_cost (hg : g.IsSquare n)
    (hrows : ∀ row ∈ g, Scalar.isFinite (Scalar.least row) = true)
    (hcols : ∀ j < n, ∃ i, (lowerRows g).FiniteAt i j) :
    (ofGrid (g.map cost)).reduce.1.values = (ofGrid g).reduce.1.values.map cost := by
  refine reduce_map isConversion (fun row hrow => respects (hrows row hrow)) fun x hx => ?_
  obtain ⟨j, hj⟩ := List.mem_iff_getElem?.mp hx
  have hlt : j < n := by
    rw [← Grid.length_colMinima (isSquare_lowerRows hg)]
    exact (List.getElem?_eq_some_iff.mp hj).1
  exact respects (isFinite_colMinimum hg (hcols j hlt) hj)

theorem Coherent.isFinite_leastUncovered (h : Coherent n g m c) (hf : g.FiniteAt i j)
    (hri : ¬ c.CoversRow i) (hcj : ¬ c.CoversCol j) :
    Scalar.isFinite (leastUncovered c g) = true := by
  obtain ⟨x, hx, hfinite⟩ := hf
  obtain ⟨hi, hj⟩ := h.square.lt_of_cell? hx
  obtain ⟨i₀, j₀, hcell, -, -⟩ := exists_leastUncovered h.square h.fits hi hj hri hcj
  exact isFinite_of_le (not_sinks_of_nonneg (h.nonneg i₀ j₀ _ hcell))
    (leastUncovered_le h.square h.fits hx hri hcj) hfinite

/-- An adjustment leaves an uncovered finite value finite. -/
theorem Coherent.finiteAt_shift (h : Coherent n g m c) (hf : g.FiniteAt i j)
    (hri : ¬ c.CoversRow i) (hcj : ¬ c.CoversCol j) :
    (CostMatrix.shift c (leastUncovered c g) g).FiniteAt i j := by
  obtain ⟨x, hx, hfinite⟩ := hf
  obtain ⟨hi, hj⟩ := h.square.lt_of_cell? hx
  obtain ⟨i₀, j₀, hcell, -, -⟩ := exists_leastUncovered h.square h.fits hi hj hri hcj
  refine ⟨_, (cell?_shift_eq_some_iff h.square h.fits).mpr ⟨x, hx, rfl⟩, ?_⟩
  rw [moved_uncovered hri hcj]
  exact isFinite_sub (h.nonneg i₀ j₀ _ hcell) (leastUncovered_le h.square h.fits hx hri hcj)
    hfinite

end Line

/-- A run that no observer breaks off ends well or with a breach. -/
theorem Session.ok_or_breach {α : Type} [Scalar α] [Legible α] {s : Session α} {table : Table α}
    {g : Grid α} (hg : g.IsSquare g.length) (ht : table.accept s.finite = .ok g)
    (ho : ∀ o ∈ s.observers, o.IsQuiet) (hc : s.ceiling = .null) :
    (∃ a, (Run.solveStandard g).result = .ok a ∧ (s.solve table).2.outcome = .ok a) ∨
      ∃ words phase snapshot, (s.solve table).2.outcome = .error (.breach words phase snapshot) := by
  have hrun : Run.solve (.ofValue g.length s.ceiling) g = Run.solveStandard g := by
    rw [hc]
    rfl
  have houtcome := (solve_spec ho ht hrun).2
  have hending : Run.Ending (.standard g.length) g (Run.solveStandard g).result :=
    Run.solve_ending hg _
  rw [houtcome, Run.outcome]
  generalize (Run.solveStandard g).result = result at hending
  cases hending with
  | exhausted => exact .inr ⟨_, _, _, rfl⟩
  | spent => exact .inr ⟨_, _, _, rfl⟩
  | complete => exact .inl ⟨_, rfl, rfl⟩

/-- A column that is left without a finite value when the rows are lowered is enough for a
breach. -/
theorem Session.breach_of_column {limit : Option ℚ≥0} {n j : Nat} {s : Session (Extended limit)}
    {table : Table (Extended limit)} {g : Grid (Extended limit)} (hg : g.IsSquare n)
    (ht : table.accept s.finite = .ok g) (ho : ∀ o ∈ s.observers, o.IsQuiet)
    (hc : s.ceiling = .null) (hj : j < n)
    (hcol : ∀ i < n, ∀ x ∈ (lowerRows g).cell? i j, Scalar.isFinite x = false) :
    ∃ words phase snapshot, (s.solve table).2.outcome = .error (.breach words phase snapshot) := by
  obtain rfl := hg.1
  rcases ok_or_breach hg ht ho hc with ⟨a, hresult, -⟩ | hbreach
  · obtain ⟨p, -, hfinite⟩ := Run.finiteAt_of_ok hg hresult
    obtain ⟨z, hz, hz'⟩ := hfinite (p.symm ⟨j, hj⟩)
    obtain ⟨x, m, hx, -, rfl⟩ := cell?_lowerCols_eq_some_iff.mp hz
    rw [p.apply_symm_apply] at hx
    have hlow := hcol _ (p.symm ⟨j, hj⟩).isLt x hx
    rw [(Extended.isFinite_of_sub hz').1] at hlow
    contradiction
  · exact hbreach

end OptimalAssignment
