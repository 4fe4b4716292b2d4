import Mathlib
import OptimalAssignment.Proofs.Cost.Exact
import OptimalAssignment.Proofs.Solver.Nonfinite

/-!
Forbidden pairs. A pair with an infinite cost is never matched; if costs are exact otherwise, a run
is complete exactly if some permutation avoids such pairs and no cost sinks the minimum of its row.
There are fewer covered lines than rows, so a permutation of finite costs always has an uncovered
cell, and every adjustment is finite. The adjustments add up to one potential for each row and one
for each column, which show that the permutation returned is the best of those.
-/
namespace OptimalAssignment

open CostMatrix Matching Line

/-- Whether a permutation picks finite costs only, and these. -/
def Grid.Picks {limit : Option ℚ≥0} {n : Nat} (g : Grid (Extended limit)) (p : Equiv.Perm (Fin n))
    (costs : Fin n → ℚ) : Prop :=
  ∀ i : Fin n, (g.cell? i (p i)).bind Extended.value? = some (costs i)

/-! ### Exact costs -/

/-- A rational as a cost without a limit. -/
def Line.exact (x : ℚ) : Line none :=
  ⟨.finite x trivial, by simp⟩

namespace Line

variable {x y : ℚ} {a : Line none}

theorem exact_zero : exact 0 = 0 :=
  rfl

theorem exact_add : exact x + exact y = exact (x + y) :=
  rfl

theorem exact_sub : exact x - exact y = exact (x - y) := by
  rw [sub_eq_add_neg x y]
  rfl

theorem exact_le_exact : exact x ≤ exact y ↔ x ≤ y :=
  Extended.finite_le_finite

theorem exact_injective : Function.Injective exact := by
  intro x y h
  have hcost := congrArg (fun a : Line none => a.cost.value?) h
  exact Option.some.inj hcost

theorem value?_cost : a.cost.value? = some x ↔ a = exact x := by
  constructor
  · intro h
    obtain ⟨a, ha⟩ := a
    cases a with
    | finite y hy =>
      obtain rfl : y = x := Option.some.inj h
      rfl
    | below | above | undefined => contradiction
  · rintro rfl
    rfl

theorem isFinite_iff_exact : Scalar.isFinite a = true ↔ ∃ x, a = exact x :=
  Option.isSome_iff_exists.trans (exists_congr fun _ => value?_cost)

theorem moved_exact (c : Coverage) (l : ℚ) (i j : Nat) (x : ℚ) :
    moved c (exact l) i j (exact x) = exact (moved c l i j x) := by
  rw [moved, moved]
  split_ifs
  · exact exact_add
  · rfl
  · exact exact_sub

theorem picks_map_cost {n : Nat} {g : Grid (Line none)} {p : Equiv.Perm (Fin n)}
    {costs : Fin n → ℚ} :
    (g.map cost).Picks p costs ↔ ∀ i : Fin n, g.cell? i (p i) = some (exact (costs i)) := by
  refine forall_congr' fun i => ?_
  rw [Grid.cell?_map, Option.bind_map]
  simp only [Option.bind_eq_some_iff, Function.comp_apply, value?_cost]
  exact ⟨fun ⟨a, ha, he⟩ => by rw [ha, he], fun h => ⟨_, h, rfl⟩⟩

end Line

/-! ### Counting lines -/

/-- There are fewer covered lines than rows, so every permutation has an uncovered cell. -/
theorem Coherent.exists_uncovered_along {α : Type} [Scalar α] [LinearOrder α] {n : Nat} {g : Grid α}
    {m : Matching Nat} {c : Coverage} (h : Coherent n g m c) (hd : ∃ col < n, m.row? col = none)
    (p : Equiv.Perm (Fin n)) : ∃ i : Fin n, ¬ c.CoversRow i ∧ ¬ c.CoversCol (p i) := by
  -- if all its cells were covered, there would be a covered line for each row
  by_contra hall
  push Not at hall
  have hone : ∀ i : Fin n, (1 : ℚ) ≤
      (if c.CoversRow i then 1 else 0) + if c.CoversCol (p i) then 1 else 0 := by
    intro i
    by_cases hr : c.CoversRow i
    · rw [if_pos hr]
      split_ifs <;> norm_num
    · rw [if_neg hr, if_pos (hall i hr), zero_add]
  have hsum : (n : ℚ) ≤ c.numCoveredRows + c.numCoveredCols := by
    calc (n : ℚ) = ∑ _i : Fin n, 1 := by simp
      _ ≤ ∑ i : Fin n, ((if c.CoversRow i then 1 else 0) +
            if c.CoversCol (p i) then (1 : ℚ) else 0) := Finset.sum_le_sum fun i _ => hone i
      _ = c.numCoveredRows + c.numCoveredCols := by
        rw [Finset.sum_add_distrib, sum_coversRow h.fits, sum_coversCol p h.fits]
  have hlt := h.numSelected_lt hd
  rw [← h.numCovered_eq] at hlt
  exact absurd (by exact_mod_cast hsum) (not_le.mpr hlt)

namespace Work

variable {n : Nat} {w w' : Work (Line none)} {entries : List (Work (Line none))}
variable {passes flips : Nat} {g : Grid (Line none)} {u v : Nat → ℚ}

/-- Whether the values are what is left of the finite given costs by potentials of rows and
columns. -/
def Priced (g : Grid (Line none)) (u v : Nat → ℚ) (w : Work (Line none)) : Prop :=
  ∀ i j x, g.cell? i j = some (exact x) →
    w.matrix.values.cell? i j = some (exact (x - u i - v j))

theorem Priced.lowered {l : ℚ} (hp : w.Priced g u v) (hsquare : w.matrix.values.IsSquare n)
    (hfits : w.coverage.Fits n)
    (hleast : leastUncovered w.coverage w.matrix.values = exact l) :
    w.lowered.Priced g (fun i => u i + l * (1 - if w.coverage.CoversRow i then 1 else 0))
      (fun j => v j - l * if w.coverage.CoversCol j then 1 else 0) := by
  intro i j x hx
  refine (cell?_shift_eq_some_iff hsquare hfits).mpr ⟨_, hp i j x hx, ?_⟩
  rw [hleast, moved_exact, moved_eq]
  congr 1
  ring

theorem Priced.finiteAt (hp : w.Priced g u v) {i j : Nat} (hf : g.FiniteAt i j) :
    w.matrix.values.FiniteAt i j := by
  obtain ⟨a, ha, hfinite⟩ := hf
  obtain ⟨x, rfl⟩ := isFinite_iff_exact.mp hfinite
  exact ⟨_, hp i j x ha, rfl⟩

/-- A permutation of finite costs has an uncovered cell, and its value is finite. -/
theorem Priced.isFinite_leastUncovered (hw : w.Priced g u v) {m : Matching Nat} {c : Coverage}
    (h : Coherent n w.matrix.values m c) (hd : ∃ col < n, m.row? col = none)
    {p : Equiv.Perm (Fin n)} (hpick : ∀ i : Fin n, g.FiniteAt i (p i)) :
    Scalar.isFinite (leastUncovered c w.matrix.values) = true := by
  obtain ⟨i, hri, hci⟩ := h.exists_uncovered_along hd p
  exact h.isFinite_leastUncovered (hw.finiteAt (hpick i)) hri hci

theorem Pass.priced (hp : Pass w entries w' flips) (h : w.IsReady n)
    (ho : w.coverage.isOptimal = false) {p : Equiv.Perm (Fin n)}
    (hpick : ∀ i : Fin n, g.FiniteAt i (p i)) (hw : w.Priced g u v) :
    Respected cost entries ∧ ∃ u v, w'.Priced g u v := by
  have hleast : ∀ row col sel,
      uncoveredZero? w.coverage w.matrix.values = some (row, col) →
      w.matching.col? row = some sel → Scalar.isFinite
        (leastUncovered (w.coverage.exchanged row sel) w.matrix.values) = true :=
    fun row col sel zero matched => hw.isFinite_leastUncovered
      ((h.found ho zero).exchanged matched) (h.found ho zero).deficient hpick
  refine ⟨hp.respected fun row col sel zero matched => respects (hleast row col sel zero matched),
    ?_⟩
  cases hp with
  | @cover row col sel w₁ w₂ w₃ zero matched eq₁ eq₂ eq₃ =>
    have hfits := ((h.found ho zero).exchanged matched).fits
    obtain ⟨l, hl⟩ := isFinite_iff_exact.mp (hleast row col sel zero matched)
    have hswapped : ((w.found row col).next.swapped row sel).next.Priced g u v := hw
    rw [eq₃, eq₂, eq₁]
    exact ⟨_, _, hswapped.lowered h.square hfits hl⟩
  | augment _ _ eq₁ _ _ eq₂ eq₃ =>
    rw [eq₃, eq₂, eq₁]
    exact ⟨u, v, hw⟩

/-- Potentials that leave zeros where a permutation picks show that none is better. -/
theorem Priced.sum_le (hw : w.Priced g u v) (h : w.IsReady n) {p q : Equiv.Perm (Fin n)}
    {costs others : Fin n → ℚ} (matched : ∀ i : Fin n, w.matching.col? i = some (p i : Nat))
    (hp : ∀ i : Fin n, g.cell? i (p i) = some (exact (costs i)))
    (hq : ∀ i : Fin n, g.cell? i (q i) = some (exact (others i))) :
    ∑ i, costs i ≤ ∑ i, others i := by
  have hcosts : ∀ i : Fin n, costs i = u i + v (p i) := by
    intro i
    have hzero := h.selected_zero i (p i) (matched i)
    rw [hw i (p i) _ (hp i), ← exact_zero] at hzero
    have := exact_injective (Option.some.inj hzero)
    linarith
  have hothers : ∀ i : Fin n, u i + v (q i) ≤ others i := by
    intro i
    have hnonneg := h.nonneg i (q i) _ (hw i (q i) _ (hq i))
    rw [← exact_zero, exact_le_exact] at hnonneg
    linarith
  have hcomp : ∀ r : Equiv.Perm (Fin n), ∑ i : Fin n, v (r i) = ∑ j : Fin n, v j :=
    fun r => Equiv.sum_comp r fun j : Fin n => v j
  calc ∑ i, costs i = ∑ i : Fin n, (u i + v (p i)) := Finset.sum_congr rfl fun i _ => hcosts i
    _ = ∑ i : Fin n, (u i + v (q i)) := by
      rw [Finset.sum_add_distrib, Finset.sum_add_distrib, hcomp, hcomp]
    _ ≤ ∑ i, others i := Finset.sum_le_sum fun i _ => hothers i

theorem exists_priced_selected (hg : g.IsSquare n)
    (hrows : ∀ row ∈ g, Scalar.isFinite (Scalar.least row) = true)
    (hcols : ∀ j < n, ∃ i, (lowerRows g).FiniteAt i j) :
    ∃ u v, (selected g).next.Priced g u v := by
  have hu : ∀ i : Nat, ∃ u, ∀ row, g[i]? = some row → Scalar.least row = exact u := by
    intro i
    cases hrow : g[i]? with
    | none => exact ⟨0, fun row h => by contradiction⟩
    | some row =>
      obtain ⟨u, hu⟩ := isFinite_iff_exact.mp (hrows row (List.mem_of_getElem? hrow))
      exact ⟨u, fun row' h => by rw [← Option.some.inj h, hu]⟩
  have hv : ∀ j : Nat, ∃ v, ∀ m, (Grid.colMinima (lowerRows g))[j]? = some m → m = exact v := by
    intro j
    cases hm : (Grid.colMinima (lowerRows g))[j]? with
    | none => exact ⟨0, fun m h => by contradiction⟩
    | some m =>
      have hlt : j < n := by
        rw [← Grid.length_colMinima (isSquare_lowerRows hg)]
        exact (List.getElem?_eq_some_iff.mp hm).1
      obtain ⟨v, hv⟩ := isFinite_iff_exact.mp (isFinite_colMinimum hg (hcols j hlt) hm)
      exact ⟨v, fun m' h => by rw [← Option.some.inj h, hv]⟩
  choose u hu using hu
  choose v hv using hv
  refine ⟨u, v, fun i j x hx => ?_⟩
  obtain ⟨row, hrow, hxrow⟩ := Grid.cell?_eq_some_iff.mp hx
  obtain ⟨m, hm, -, -⟩ := Grid.exists_colMinimum (isSquare_lowerRows hg) (hg.lt_of_cell? hx).2
  refine cell?_lowerCols_eq_some_iff.mpr ⟨exact (x - u i), m, ?_, hm, ?_⟩
  · exact cell?_lowerRows_eq_some_iff.mpr ⟨row, _, hrow, hxrow, by rw [hu i row hrow, exact_sub]⟩
  · rw [hv j m hm, exact_sub]

end Work

/-! ### Whole runs -/

namespace Run

variable {n : Nat} {g : Grid (Extended none)}

/-- A run is complete if some permutation avoids the infinite costs, and it returns the best of
those. -/
theorem solveStandard_of_picks (hg : g.IsSquare n) (hsinks : ∀ row ∈ g, ∀ x ∈ row, ¬ x.Sinks)
    {q : Equiv.Perm (Fin n)} {others : Fin n → ℚ} (hq : g.Picks q others) :
    ∃ (a : Assignment (Extended none)) (p : Equiv.Perm (Fin n)),
      (solveStandard g).result = .ok a ∧ a.columns = Columns.ofPerm p ∧
      ∀ costs, g.Picks p costs → ∀ (q : Equiv.Perm (Fin n)) (others : Fin n → ℚ),
        g.Picks q others → ∑ i, costs i ≤ ∑ i, others i := by
  obtain ⟨g, rfl⟩ := exists_map_eq fun row hrow x hx he => hsinks row hrow x hx (.inr he)
  have hsquare : g.IsSquare n := Grid.isSquare_of_map hg
  have hpick : ∀ i : Fin n, g.FiniteAt i (q i) :=
    fun i => ⟨_, picks_map_cost.mp hq i, rfl⟩
  obtain rfl := hsquare.1
  have hrows : ∀ row ∈ g, Scalar.isFinite (Scalar.least row) = true := by
    intro row hrow
    obtain ⟨i, hi⟩ := List.mem_iff_getElem?.mp hrow
    obtain ⟨x, hx, hfinite⟩ := hpick ⟨i, (List.getElem?_eq_some_iff.mp hi).1⟩
    obtain ⟨row', hrow', hxrow⟩ := Grid.cell?_eq_some_iff.mp hx
    obtain rfl := Option.some.inj (hi.symm.trans hrow')
    have hmem := List.mem_of_getElem? hxrow
    have hleast := Scalar.least_mem (List.ne_nil_of_mem hmem)
    exact isFinite_of_le (hsinks _ (List.mem_map_of_mem hrow) _ (List.mem_map_of_mem hleast))
      (Scalar.least_le hmem) hfinite
  have hcols : ∀ j < g.length, ∃ i, (lowerRows g).FiniteAt i j := by
    intro j hj
    obtain ⟨x, hx, hfinite⟩ := hpick (q.symm ⟨j, hj⟩)
    rw [q.apply_symm_apply] at hx
    obtain ⟨row, hrow, hxrow⟩ := Grid.cell?_eq_some_iff.mp hx
    obtain ⟨y, rfl⟩ := isFinite_iff_exact.mp hfinite
    obtain ⟨l, hl⟩ := isFinite_iff_exact.mp (hrows row (List.mem_of_getElem? hrow))
    exact ⟨_, exact (y - l), cell?_lowerRows_eq_some_iff.mpr
      ⟨row, _, hrow, hxrow, by rw [hl, exact_sub]⟩, rfl⟩
  have hpriced : ∀ entries w passes flips,
      (Work.selected g).next.Passes entries w passes flips →
      Work.Respected cost entries ∧ ∃ u v, w.Priced g u v :=
    fun _ _ _ _ search => search.respected (I := fun w => ∃ u v, w.Priced g u v)
      (fun _ _ _ _ h ho hp ⟨_, _, hw⟩ => hp.priced h ho hpick hw) (Work.selected_ready hsquare)
      (Work.exists_priced_selected hsquare hrows hcols)
  obtain ⟨entries, w, passes, flips, search, p, a, matched, hresult, hcolumns⟩ :=
    solveStandard_map isConversion (reduce_cost hsquare hrows hcols) hsquare
      fun entries w passes flips search => (hpriced entries w passes flips search).1
  obtain ⟨-, u, v, hw⟩ := hpriced entries w passes flips search
  refine ⟨a, p, hresult, hcolumns, fun costs hp q others hq => ?_⟩
  exact hw.sum_le (search.ready (Work.selected_ready hsquare)) matched (picks_map_cost.mp hp)
    (picks_map_cost.mp hq)

/-- A permutation that a run returns picks finite costs only. -/
theorem picks_of_ok (hg : g.IsSquare n) {a : Assignment (Extended none)}
    (h : (solveStandard g).result = .ok a) :
    ∃ (p : Equiv.Perm (Fin n)) (costs : Fin n → ℚ),
      a.columns = Columns.ofPerm p ∧ g.Picks p costs := by
  obtain rfl := hg.1
  obtain ⟨p, hcolumns, hfinite⟩ := finiteAt_of_ok hg h
  have hcost : ∀ i : Fin g.length, ∃ x, (g.cell? i (p i)).bind Extended.value? = some x := by
    intro i
    obtain ⟨y, hy, hy'⟩ := (finiteAt_of_reduce (hfinite i)).1
    rw [hy]
    exact Option.isSome_iff_exists.mp hy'
  choose costs hcosts using hcost
  exact ⟨p, costs, hcolumns, hcosts⟩

end Run

namespace Session

variable {n : Nat} {s : Session (Extended none)} {table : Table (Extended none)}
  {g : Grid (Extended none)}

/-- Forbidden pairs: a session that does not check for finite costs, under the standard ceiling,
returns an assignment exactly if no cost is undefined or infinitely low and some permutation picks
finite costs only. It then returns the least of those permutations, and fails with a breach
otherwise. -/
theorem solve_forbidden (hn : 1 ≤ n) (hg : g.IsSquare n) (ht : table.Holds g)
    (ho : ∀ o ∈ s.observers, o.IsQuiet) (hc : s.ceiling = .null) (hf : s.finite = false) :
    ((∃ a, (s.solve table).2.outcome = .ok a) ↔
      (∀ row ∈ g, ∀ x ∈ row, x ≠ .undefined ∧ x ≠ .below) ∧
        ∃ (p : Equiv.Perm (Fin n)) (costs : Fin n → ℚ), g.Picks p costs) ∧
    (∀ a, (s.solve table).2.outcome = .ok a →
      ∃ (p : Equiv.Perm (Fin n)) (costs : Fin n → ℚ),
        a.columns = Columns.ofPerm p ∧ g.Picks p costs ∧
        ∀ (q : Equiv.Perm (Fin n)) (others : Fin n → ℚ), g.Picks q others →
          ∑ i, costs i ≤ ∑ i, others i) ∧
    ((∀ a, (s.solve table).2.outcome ≠ .ok a) →
      ∃ words phase snapshot,
        (s.solve table).2.outcome = .error (.breach words phase snapshot)) := by
  have haccept : table.accept s.finite = .ok g :=
    Table.accept_eq ht hn hg fun htrue => absurd (hf.symm.trans htrue) (by decide)
  have hsquare : g.IsSquare g.length := by rw [hg.1]; exact hg
  have hends := ok_or_breach hsquare haccept ho hc
  have hresult : ∀ a, (s.solve table).2.outcome = .ok a → (Run.solveStandard g).result = .ok a := by
    intro a ha
    rcases hends with ⟨b, hb, hb'⟩ | ⟨words, phase, snapshot, hbreach⟩
    · obtain rfl := Except.ok.inj (ha.symm.trans hb')
      exact hb
    · rw [hbreach] at ha
      contradiction
  refine ⟨⟨?_, ?_⟩, ?_, ?_⟩
  · rintro ⟨a, ha⟩
    have hsinks := Run.not_sinks_of_ok hsquare (hresult a ha)
    obtain ⟨p, costs, -, hpicks⟩ := Run.picks_of_ok hg (hresult a ha)
    exact ⟨fun row hrow x hx => (not_or.mp (hsinks row hrow x hx)).symm, p, costs, hpicks⟩
  · rintro ⟨hdefined, p, costs, hpicks⟩
    obtain ⟨a, -, ha, -⟩ := Run.solveStandard_of_picks hg
      (fun row hrow x hx => not_or.mpr (hdefined row hrow x hx).symm) hpicks
    refine ⟨a, (solve_eq ho haccept ?_).2⟩
    rw [hc]
    exact ha
  · intro a ha
    have hsinks := Run.not_sinks_of_ok hsquare (hresult a ha)
    obtain ⟨p, costs, hcolumns, hpicks⟩ := Run.picks_of_ok hg (hresult a ha)
    obtain ⟨b, q, hb, hcolumns', hleast⟩ := Run.solveStandard_of_picks hg hsinks hpicks
    obtain rfl : a = b := Except.ok.inj ((hresult a ha).symm.trans hb)
    obtain rfl : p = q := Columns.ofPerm_injective (hcolumns.symm.trans hcolumns')
    exact ⟨p, costs, hcolumns, hpicks, hleast costs hpicks⟩
  · intro hnone
    rcases hends with ⟨a, -, ha⟩ | hbreach
    · exact absurd ha (hnone a)
    · exact hbreach

/-- Costs of two rows, the first of which may not take the second column. -/
def barred : Grid (Extended none) :=
  [[.finite 5 trivial, .above], [.finite 1 trivial, .finite 2 trivial]]

theorem solve_forbidden_two :
    1 ≤ 2 ∧ barred.IsSquare 2 ∧
      ∃ (a : Assignment (Extended none)) (p : Equiv.Perm (Fin 2)) (costs : Fin 2 → ℚ),
        (({ finite := false } : Session (Extended none)).solve (.rows barred)).2.outcome = .ok a ∧
        a.columns = Columns.ofPerm p ∧ barred.Picks p costs := by
  have hsquare : barred.IsSquare 2 := by decide
  have hpicks : barred.Picks (1 : Equiv.Perm (Fin 2)) ![5, 2] := by
    intro i
    fin_cases i <;> rfl
  obtain ⟨hiff, hall, -⟩ := solve_forbidden (s := { finite := false }) one_le_two hsquare .rows
    (by simp) rfl rfl
  obtain ⟨a, ha⟩ := hiff.mpr ⟨by decide, 1, _, hpicks⟩
  obtain ⟨p, costs, hcolumns, hp, -⟩ := hall a ha
  exact ⟨one_le_two, hsquare, a, p, costs, ha, hcolumns, hp⟩

end Session

end OptimalAssignment
