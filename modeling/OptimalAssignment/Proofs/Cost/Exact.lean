import Mathlib
import OptimalAssignment.Proofs.Cost.Adjustment

/-!
Exact costs. Over the rationals the interleaved sums are plain sums, and what reduction and
adjustment take away from the values is the same for every permutation: the row and column minima in
the one case, and the least uncovered value once for each line that is missing from the cover in the
other.
-/
namespace OptimalAssignment

instance : Scalar ℚ where
  lower a b := if a ≤ b then a else b
  isZero x := x == 0
  isFinite _ := true

instance : LawfulScalar ℚ where
  lower_eq_min a b := (min_def a b).symm
  isZero_iff _ := beq_iff_eq
  sub_self := sub_self
  sub_zero := sub_zero
  sub_nonneg := sub_nonneg_of_le
  add_nonneg := add_nonneg

/-- Rationals are shown as fractions. -/
instance : Legible ℚ where
  brief := toString

/-! ### Sums -/

namespace LaneSum

@[simp] theorem plainFrom_eq (start : ℚ) (xs : List ℚ) : plainFrom start xs = start + xs.sum := by
  induction xs generalizing start with
  | nil => simp [plainFrom]
  | cons x xs ih =>
    have hstep : plainFrom start (x :: xs) = plainFrom (start + x) xs := rfl
    rw [hstep, ih, List.sum_cons, add_assoc]

/-- The four lanes and what is left over add up to the list. -/
theorem sum_deal (xs : List ℚ) :
    ((deal xs).1.map (·.1)).sum + ((deal xs).1.map (·.2.1)).sum +
      ((deal xs).1.map (·.2.2.1)).sum + ((deal xs).1.map (·.2.2.2)).sum + (deal xs).2.sum =
        xs.sum := by
  fun_induction deal xs with
  | case1 a b c d rest ih =>
    simp only [List.map_cons, List.sum_cons]
    linarith
  | case2 rest => simp

@[simp] theorem lane_eq (xs : List ℚ) : lane xs = xs.sum := by
  rw [← sum_deal xs]
  simp only [lane, plainFrom_eq]
  ring

@[simp] theorem total_eq (xs : List ℚ) : total xs = xs.sum := by
  rw [← sum_deal xs]
  simp only [total, plainFrom_eq, lane_eq]
  ring

end LaneSum

theorem sum_getElem? {n : Nat} {xs : List ℚ} (h : xs.length = n) :
    ∑ i : Fin n, (xs[(i : Nat)]?).getD 0 = xs.sum := by
  subst h
  rw [← Fin.sum_univ_getElem]
  simp

namespace Grid

variable {n : Nat} {g : Grid ℚ}

/-- The sum of the values that a permutation picks. -/
def along (g : Grid ℚ) (p : Equiv.Perm (Fin n)) : ℚ :=
  ∑ i : Fin n, g.entry i (p i)

theorem total_along (g : Grid ℚ) (p : Equiv.Perm (Fin n)) :
    LaneSum.total (List.ofFn fun i => g.entry i (p i)) = g.along p := by
  rw [LaneSum.total_eq, List.sum_ofFn, along]

theorem along_permCongr {k : Nat} (h : n = k) (g : Grid ℚ) (p : Equiv.Perm (Fin n)) :
    g.along ((finCongr h).permCongr p) = g.along p := by
  subst h
  rfl

/-- Whether a grid is what is left of another one when each row and each column takes its price. -/
def Repriced (u v : Fin n → ℚ) (g g' : Grid ℚ) : Prop :=
  ∀ i j : Fin n, g'.entry i j = g.entry i j - u i - v j

namespace Repriced

variable {u v u' v' : Fin n → ℚ} {g' g'' : Grid ℚ}

theorem refl (g : Grid ℚ) : Repriced (0 : Fin n → ℚ) 0 g g := fun i j => by simp

theorem trans (h : Repriced u v g g') (h' : Repriced u' v' g' g'') :
    Repriced (u + u') (v + v') g g'' := by
  intro i j
  rw [h' i j, h i j, Pi.add_apply, Pi.add_apply]
  ring

/-- Every permutation pays each price once. -/
theorem along (h : Repriced u v g g') (p : Equiv.Perm (Fin n)) :
    g.along p = ∑ i, u i + ∑ j, v j + g'.along p := by
  rw [Grid.along, Grid.along, ← Equiv.sum_comp p v, ← Finset.sum_add_distrib,
    ← Finset.sum_add_distrib]
  refine Finset.sum_congr rfl fun i _ => ?_
  rw [h i (p i)]
  ring

end Repriced

/-- No value is negative, so a sum is zero only if every value of it is. -/
theorem along_nonneg (h : ∀ i j x, g.cell? i j = some x → 0 ≤ x) (hg : g.IsSquare n)
    (p : Equiv.Perm (Fin n)) : 0 ≤ g.along p :=
  Finset.sum_nonneg fun i _ => h i (p i) _ (hg.cell?_eq i.isLt (p i).isLt)

theorem along_eq_zero_iff (h : ∀ i j x, g.cell? i j = some x → 0 ≤ x) (hg : g.IsSquare n)
    (p : Equiv.Perm (Fin n)) : g.along p = 0 ↔ ∀ i : Fin n, g.entry i (p i) = 0 := by
  rw [along, Finset.sum_eq_zero_iff_of_nonneg]
  · simp
  · exact fun i _ => h i (p i) _ (hg.cell?_eq i.isLt (p i).isLt)

end Grid

namespace CostMatrix

open Grid

variable {n : Nat} {g : Grid ℚ} {c : Coverage} (p : Equiv.Perm (Fin n))

/-! ### What reduction takes away -/

theorem repriced_lowerRows (hg : g.IsSquare n) :
    Repriced (fun i : Fin n => ((rowMinima g)[(i : Nat)]?).getD 0) 0 g (lowerRows g) := by
  intro i j
  refine entry_eq ?_
  obtain ⟨row, hrow, hx⟩ := cell?_eq_some_iff.mp (hg.cell?_eq i.isLt j.isLt)
  exact cell?_lowerRows_eq_some_iff.mpr ⟨row, _, hrow, hx, by simp [rowMinima, hrow]⟩

theorem repriced_lowerCols (hg : g.IsSquare n) :
    Repriced 0 (fun j : Fin n => ((colMinima g)[(j : Nat)]?).getD 0) g (lowerCols g) := by
  intro i j
  refine entry_eq ?_
  have hm : (colMinima g)[(j : Nat)]? = some (((colMinima g)[(j : Nat)]?).getD 0) := by
    simp [length_colMinima hg]
  exact cell?_lowerCols_eq_some_iff.mpr ⟨_, _, hg.cell?_eq i.isLt j.isLt, hm, by simp⟩

theorem reduce_snd (m : CostMatrix ℚ) :
    m.reduce.2 = (rowMinima m.values).sum + (colMinima (lowerRows m.values)).sum := by
  rw [← LaneSum.total_eq, ← LaneSum.total_eq]
  rfl

/-- The prices of a reduction are the minima, and its offset is their sum. -/
theorem exists_repriced_reduce {m : CostMatrix ℚ} (hm : m.values.IsSquare n) :
    ∃ u v : Fin n → ℚ, Repriced u v m.values m.reduce.1.values ∧
      ∑ i, u i + ∑ j, v j = m.reduce.2 := by
  have hsquare : (lowerRows m.values).IsSquare n := isSquare_lowerRows hm
  have hrows : (rowMinima m.values).length = n := by rw [rowMinima, List.length_map, hm.1]
  refine ⟨_, _, (repriced_lowerRows hm).trans (repriced_lowerCols hsquare), ?_⟩
  simp only [add_zero, zero_add]
  rw [reduce_snd, sum_getElem? hrows, sum_getElem? (length_colMinima hsquare)]

/-- The offset of a reduction is what every permutation loses by it. -/
theorem along_reduce (hg : g.IsSquare n) :
    g.along p = (ofGrid g).reduce.2 + (ofGrid g).reduce.1.values.along p := by
  obtain ⟨u, v, hpriced, hsum⟩ := exists_repriced_reduce (m := ofGrid g) hg
  rw [← hsum]
  exact hpriced.along p

/-! ### What an adjustment takes away -/

theorem moved_eq (c : Coverage) (least : ℚ) (i j : Nat) (x : ℚ) :
    moved c least i j x = x - least * (1 - (if c.CoversRow i then 1 else 0) -
      (if c.CoversCol j then 1 else 0)) := by
  by_cases hr : c.CoversRow i <;> by_cases hc : c.CoversCol j <;> simp [moved, hr, hc]

theorem sum_covered {flags : List Bool} (h : flags.length = n) :
    ∑ i : Fin n, (if flags[(i : Nat)]? = some true then (1 : ℚ) else 0) = flags.count true := by
  rw [count_true_eq_card, h, Finset.card_filter, Finset.sum_range, Nat.cast_sum]
  simp

theorem sum_coversRow (hc : c.Fits n) :
    ∑ i : Fin n, (if c.CoversRow i then (1 : ℚ) else 0) = c.numCoveredRows :=
  sum_covered hc.length_rows

theorem sum_coversCol (hc : c.Fits n) :
    ∑ i : Fin n, (if c.CoversCol (p i) then (1 : ℚ) else 0) = c.numCoveredCols := by
  rw [Coverage.numCoveredCols, ← sum_covered hc.length_cols]
  exact Equiv.sum_comp p fun j : Fin n => if c.CoversCol j then (1 : ℚ) else 0

/-- The prices of an adjustment: its value for each uncovered row, less as much for each covered
column. -/
theorem repriced_shift (hg : g.IsSquare n) (hc : c.Fits n) (least : ℚ) :
    Repriced (fun i : Fin n => least * (1 - if c.CoversRow i then 1 else 0))
      (fun j : Fin n => -(least * if c.CoversCol j then 1 else 0)) g (shift c least g) := by
  intro i j
  rw [entry_shift hg hc i.isLt j.isLt, moved_eq]
  ring

theorem exists_repriced_shift (hg : g.IsSquare n) (hc : c.Fits n) (least : ℚ) :
    ∃ u v : Fin n → ℚ, Repriced u v g (shift c least g) ∧
      ∑ i, u i + ∑ j, v j = least * (n - c.numCoveredRows - c.numCoveredCols) := by
  have hcols : ∑ j : Fin n, (if c.CoversCol j then (1 : ℚ) else 0) = c.numCoveredCols :=
    sum_coversCol 1 hc
  refine ⟨_, _, repriced_shift hg hc least, ?_⟩
  rw [← Finset.mul_sum, Finset.sum_neg_distrib, ← Finset.mul_sum, Finset.sum_sub_distrib,
    sum_coversRow hc, hcols]
  simp only [Finset.sum_const, Finset.card_univ, Fintype.card_fin, nsmul_eq_mul, mul_one]
  ring

/-- An adjustment takes its value once for each line that is missing from a cover of all rows. -/
theorem along_shift (hg : g.IsSquare n) (hc : c.Fits n) (least : ℚ) :
    (shift c least g).along p =
      g.along p - least * (n - c.numCoveredRows - c.numCoveredCols) := by
  obtain ⟨u, v, hpriced, hsum⟩ := exists_repriced_shift hg hc least
  rw [hpriced.along p, hsum, add_sub_cancel_left]

end CostMatrix

end OptimalAssignment
