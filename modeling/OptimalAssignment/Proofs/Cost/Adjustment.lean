import OptimalAssignment.Proofs.Coverage
import OptimalAssignment.Proofs.Cost.Reduction

/-!
Adjustments and the search for uncovered zeros, cell by cell. An adjustment succeeds as soon as one
cell is uncovered. It lowers the uncovered cells by the least of them, raises the doubly covered
cells by as much and leaves the others alone, so a covered line keeps its zeros and some uncovered
cell becomes zero.
-/
namespace OptimalAssignment.CostMatrix

section Flags

variable {α β : Type} {n i j : Nat} {g : Grid α} {c : Coverage}

/-- A map that sees the flags sees whether the lines of a cell are covered. -/
theorem cell?_mapFlags_eq_some_iff (hg : g.IsSquare n) (hc : c.Fits n)
    {f : Bool → Bool → α → β} {y : β} :
    (Grid.mapLabelled f c.rows c.cols g).cell? i j = some y ↔
      ∃ x, g.cell? i j = some x ∧ f (decide (c.CoversRow i)) (decide (c.CoversCol j)) x = y := by
  rw [Grid.cell?_mapLabelled_eq_some_iff]
  constructor
  · rintro ⟨u, v, x, hu, hv, hx, rfl⟩
    obtain ⟨hi, hj⟩ := hg.lt_of_cell? hx
    rw [hc.rows_getElem? hi] at hu
    rw [hc.cols_getElem? hj] at hv
    obtain rfl := Option.some.inj hu
    obtain rfl := Option.some.inj hv
    exact ⟨x, hx, rfl⟩
  · rintro ⟨x, hx, rfl⟩
    obtain ⟨hi, hj⟩ := hg.lt_of_cell? hx
    exact ⟨_, _, x, hc.rows_getElem? hi, hc.cols_getElem? hj, hx, rfl⟩

theorem mem_uncovered_iff (hg : g.IsSquare n) (hc : c.Fits n) {x : α} :
    x ∈ (Grid.mapLabelled (fun row col x => if row || col then none else some x) c.rows c.cols
      g).flatten.filterMap id ↔
      ∃ i j, g.cell? i j = some x ∧ ¬ c.CoversRow i ∧ ¬ c.CoversCol j := by
  rw [List.mem_filterMap]
  simp only [id_eq, exists_eq_right, Grid.mem_flatten_iff, cell?_mapFlags_eq_some_iff hg hc]
  constructor
  · rintro ⟨i, j, y, hy, he⟩
    by_cases hcov : c.CoversRow i ∨ c.CoversCol j
    · simp [hcov] at he
    · obtain ⟨hri, hcj⟩ := not_or.mp hcov
      simp only [hri, hcj, decide_false, Bool.or_self, Bool.false_eq_true, ↓reduceIte,
        Option.some.injEq] at he
      exact ⟨i, j, he ▸ hy, hri, hcj⟩
  · rintro ⟨i, j, hx, hri, hcj⟩
    exact ⟨i, j, x, hx, by simp [hri, hcj]⟩

end Flags

section Operations

variable {α : Type} [Scalar α] {n i j : Nat} {g : Grid α} {m : CostMatrix α} {c : Coverage}

/-- The value that a cell gets when the uncovered cells are lowered. -/
def moved (c : Coverage) (least : α) (i j : Nat) (x : α) : α :=
  if c.CoversRow i ∧ c.CoversCol j then x + least
  else if c.CoversRow i ∨ c.CoversCol j then x
  else x - least

theorem moved_covered {least x : α} (h : c.CoversRow i ↔ ¬ c.CoversCol j) :
    moved c least i j x = x := by
  by_cases hr : c.CoversRow i
  · simp [moved, hr, h.mp hr]
  · simp [moved, hr, not_not.mp fun hc => hr (h.mpr hc)]

theorem moved_uncovered {least x : α} (hr : ¬ c.CoversRow i) (hc : ¬ c.CoversCol j) :
    moved c least i j x = x - least := by
  simp [moved, hr, hc]

theorem cell?_shift_eq_some_iff (hg : g.IsSquare n) (hc : c.Fits n) {least y : α} :
    (shift c least g).cell? i j = some y ↔
      ∃ x, g.cell? i j = some x ∧ moved c least i j x = y := by
  rw [shift, cell?_mapFlags_eq_some_iff hg hc]
  simp [moved]

theorem entry_shift (hg : g.IsSquare n) (hc : c.Fits n) (hi : i < n) (hj : j < n) (least : α) :
    (shift c least g).entry i j = moved c least i j (g.entry i j) :=
  Grid.entry_eq ((cell?_shift_eq_some_iff hg hc).mpr ⟨_, hg.cell?_eq hi hj, rfl⟩)

theorem isSquare_shift (hg : g.IsSquare n) (hc : c.Fits n) (least : α) :
    (shift c least g).IsSquare n :=
  Grid.isSquare_mapLabelled hg hc.length_rows hc.length_cols

theorem adjust_eq (hm : m.values.IsSquare n) (hc : c.Fits n) (hi : i < n) (hj : j < n)
    (hri : ¬ c.CoversRow i) (hcj : ¬ c.CoversCol j) :
    m.adjust c = .ok ({ m with values := shift c (leastUncovered c m.values) m.values },
      leastUncovered c m.values) := by
  have hrows : c.rows.all id = false := Bool.eq_false_iff.mpr fun hall =>
    hri (hc.all_rows_iff.mp hall i hi)
  have hcols : c.cols.all id = false := Bool.eq_false_iff.mpr fun hall =>
    hcj (hc.all_cols_iff.mp hall j hj)
  have hfits : m.fits c = true := by
    simp only [fits, Bool.and_eq_true, beq_iff_eq, List.all_eq_true]
    exact ⟨by rw [hc.length_rows, size, hm.1],
      fun row hrow => by rw [hm.2 row hrow, hc.length_cols]⟩
  simp [adjust, hrows, hcols, hfits]

/-- If every cell is covered, all rows are covered or all columns. -/
theorem adjust_eq_error (hc : c.Fits n)
    (hall : ∀ i < n, ∀ j < n, c.CoversRow i ∨ c.CoversCol j) :
    m.adjust c = .error .nothingUncovered := by
  have hlines : c.rows.all id = true ∨ c.cols.all id = true := by
    rw [hc.all_rows_iff, hc.all_cols_iff]
    by_contra hopen
    push Not at hopen
    obtain ⟨⟨i, hi, hri⟩, j, hj, hcj⟩ := hopen
    exact (hall i hi j hj).elim hri hcj
  exact if_pos (Bool.or_eq_true _ _ ▸ hlines)

/-- An adjustment that succeeds had one flag for each line. -/
theorem adjust_eq_ok {m' : CostMatrix α} {least : α} (hm : m.values.IsSquare n)
    (h : m.adjust c = .ok (m', least)) :
    ({ c with size := n } : Coverage).Fits n ∧
      m' = { m with values := shift c least m.values } := by
  rw [adjust] at h
  split_ifs at h with hlines hfits
  obtain ⟨rfl, rfl⟩ := Prod.mk.inj (Except.ok.inj h)
  simp only [Bool.or_eq_true, not_or, Bool.not_eq_true, List.all_eq_false] at hlines
  obtain ⟨⟨row, hrow, -⟩, -⟩ := hlines
  simp only [fits, Bool.and_eq_true, beq_iff_eq, List.all_eq_true] at hfits
  have hrows : c.rows.length = n := hfits.1.trans hm.1
  obtain ⟨first, hfirst, hlen⟩ := hm.exists_row (i := 0)
    (hrows ▸ List.length_pos_of_mem hrow)
  exact ⟨⟨rfl, hrows, (hfits.2 first (List.mem_of_getElem? hfirst)).symm.trans hlen⟩, rfl⟩

/-! ### The first uncovered zero -/

/-- The first zero in an uncovered row and an uncovered column. -/
def uncoveredZero? (c : Coverage) (g : Grid α) : Option (Nat × Nat) :=
  Grid.firstWhere? id
    (Grid.mapLabelled (fun row col zero => zero && !row && !col) c.rows c.cols
      (g.map Scalar.isZero))

theorem stretch_eq {β : Type} {xs : List β} (h : xs.length = n) : stretch n xs = xs := by
  match xs with
  | [] => rfl
  | [x] => rw [stretch, ← h]; rfl
  | x :: y :: rest => rfl

theorem findUncoveredZero_eq (hm : m.values.IsSquare n) (hc : c.Fits n) :
    m.findUncoveredZero c = .ok (uncoveredZero? c m.values) := by
  have hmask : m.zeroMask.IsSquare n := Grid.isSquare_map hm _
  have hrows : List.map (stretch n) m.zeroMask = m.zeroMask := by
    conv_rhs => rw [← List.map_id m.zeroMask]
    exact List.map_congr_left fun row hrow => stretch_eq (hmask.2 row hrow)
  rw [findUncoveredZero, hc.length_rows, hc.length_cols, size, hm.1]
  simp only [common?, true_or, ↓reduceIte, hrows, stretch_eq hmask.1, stretch_eq hc.length_rows,
    stretch_eq hc.length_cols]
  rfl

theorem exists_of_uncoveredZero? (hg : g.IsSquare n) (hc : c.Fits n)
    (h : uncoveredZero? c g = some (i, j)) :
    ∃ x, g.cell? i j = some x ∧ Scalar.isZero x = true ∧ ¬ c.CoversRow i ∧ ¬ c.CoversCol j := by
  obtain ⟨z, hz, rfl⟩ := Grid.firstWhere?_eq_some h
  obtain ⟨z, hz, he⟩ := (cell?_mapFlags_eq_some_iff (Grid.isSquare_map hg _) hc).mp hz
  rw [Grid.cell?_map] at hz
  obtain ⟨x, hx, rfl⟩ := Option.map_eq_some_iff.mp hz
  simp only [Bool.and_eq_true, Bool.not_eq_true', decide_eq_false_iff_not] at he
  exact ⟨x, hx, he.1.1, he.1.2, he.2⟩

theorem uncoveredZero?_ne_none_of_isZero {x : α} (hg : g.IsSquare n) (hc : c.Fits n)
    (hx : g.cell? i j = some x) (hzero : Scalar.isZero x = true) (hri : ¬ c.CoversRow i)
    (hcj : ¬ c.CoversCol j) : uncoveredZero? c g ≠ none := by
  have hz : (g.map Scalar.isZero).cell? i j = some true := by
    rw [Grid.cell?_map, hx, Option.map_some, hzero]
  refine Grid.firstWhere?_ne_none (i := i) (j := j) (x := true) ?_ rfl
  exact (cell?_mapFlags_eq_some_iff (Grid.isSquare_map hg _) hc).mpr
    ⟨true, hz, by simp [hri, hcj]⟩

end Operations

variable {α : Type} [LinearOrder α] [Scalar α] [LawfulScalar α]
variable {n i j : Nat} {g : Grid α} {c : Coverage}

theorem leastUncovered_le {x : α} (hg : g.IsSquare n) (hc : c.Fits n) (hx : g.cell? i j = some x)
    (hri : ¬ c.CoversRow i) (hcj : ¬ c.CoversCol j) : leastUncovered c g ≤ x :=
  LaneMinimum.least_le ((mem_uncovered_iff hg hc).mpr ⟨i, j, hx, hri, hcj⟩)

theorem exists_leastUncovered (hg : g.IsSquare n) (hc : c.Fits n) (hi : i < n) (hj : j < n)
    (hri : ¬ c.CoversRow i) (hcj : ¬ c.CoversCol j) :
    ∃ i j, g.cell? i j = some (leastUncovered c g) ∧ ¬ c.CoversRow i ∧ ¬ c.CoversCol j := by
  obtain ⟨x, hx⟩ := hg.exists_cell hi hj
  have hmem := (mem_uncovered_iff hg hc).mpr ⟨i, j, hx, hri, hcj⟩
  exact (mem_uncovered_iff hg hc).mp (LaneMinimum.least_mem (List.ne_nil_of_mem hmem))

theorem shift_nonneg (hg : g.IsSquare n) (hc : c.Fits n) (hi : i < n) (hj : j < n)
    (hri : ¬ c.CoversRow i) (hcj : ¬ c.CoversCol j) :
    0 ≤ (shift c (leastUncovered c g) g).entry i j := by
  rw [entry_shift hg hc hi hj, moved_uncovered hri hcj]
  exact LawfulScalar.sub_nonneg (leastUncovered_le hg hc (hg.cell?_eq hi hj) hri hcj)

theorem exists_shift_zero (hg : g.IsSquare n) (hc : c.Fits n) (hi : i < n) (hj : j < n)
    (hri : ¬ c.CoversRow i) (hcj : ¬ c.CoversCol j) :
    ∃ i < n, ∃ j < n, ¬ c.CoversRow i ∧ ¬ c.CoversCol j ∧
      (shift c (leastUncovered c g) g).entry i j = 0 := by
  obtain ⟨i, j, hleast, hri, hcj⟩ := exists_leastUncovered hg hc hi hj hri hcj
  obtain ⟨hi, hj⟩ := hg.lt_of_cell? hleast
  refine ⟨i, hi, j, hj, hri, hcj, ?_⟩
  rw [entry_shift hg hc hi hj, moved_uncovered hri hcj, Grid.entry_eq hleast, LawfulScalar.sub_self]

theorem uncoveredZero?_spec (hg : g.IsSquare n) (hc : c.Fits n)
    (h : uncoveredZero? c g = some (i, j)) :
    g.cell? i j = some 0 ∧ ¬ c.CoversRow i ∧ ¬ c.CoversCol j := by
  obtain ⟨x, hx, hzero, huncovered⟩ := exists_of_uncoveredZero? hg hc h
  rw [(LawfulScalar.isZero_iff x).mp hzero] at hx
  exact ⟨hx, huncovered⟩

theorem uncoveredZero?_ne_none (hg : g.IsSquare n) (hc : c.Fits n) (hx : g.cell? i j = some 0)
    (hri : ¬ c.CoversRow i) (hcj : ¬ c.CoversCol j) : uncoveredZero? c g ≠ none :=
  uncoveredZero?_ne_none_of_isZero hg hc hx ((LawfulScalar.isZero_iff 0).mpr rfl) hri hcj

end OptimalAssignment.CostMatrix
