import Mathlib
import OptimalAssignment.Proofs.Cost.Exact
import OptimalAssignment.Proofs.Solver.Snapshots

/-!
The lower bound that a run carries along. It starts with the offset of the reduction, and every
adjustment raises it by the value moved, once for each row that is not matched yet. The given cost
of a permutation is the bound plus what the permutation picks from the working values, at every
step; so no permutation costs less than the bound.
-/
namespace OptimalAssignment

open CostMatrix Matching

/-- What a snapshot adds to the lower bound: nothing, unless it shows an adjustment. -/
def Snapshot.gain (s : Snapshot ℚ) : ℚ :=
  if s.phase = some .adjustPotentials then s.adjustment * (s.size - s.numSelected) else 0

/-- The lower bound after some snapshots. -/
def Snapshot.bound (offset : ℚ) (shown : List (Snapshot ℚ)) : ℚ :=
  offset + (shown.map gain).sum

theorem Snapshot.bound_append (offset : ℚ) (xs ys : List (Snapshot ℚ)) :
    bound (bound offset xs) ys = bound offset (xs ++ ys) := by
  simp only [bound, List.map_append, List.sum_append]
  ring

namespace Work

variable {n : Nat} {g : Grid ℚ} {bound : ℚ} {w w' : Work ℚ} {entries later : List (Work ℚ)}
variable {passes flips : Nat}

/-- Whether a bound and the working values together make up the given costs. -/
def Balanced (n : Nat) (g : Grid ℚ) (bound : ℚ) (w : Work ℚ) : Prop :=
  ∀ p : Equiv.Perm (Fin n), g.along p = bound + w.matrix.values.along p

/-- Whether bound and values make up the given costs at every phase, the bound rising on the way. -/
def Tracked (n : Nat) (g : Grid ℚ) : ℚ → List (Work ℚ) → Prop
  | _, [] => True
  | bound, w :: rest =>
    0 ≤ w.snapshot.gain ∧ w.Balanced n g (bound + w.snapshot.gain) ∧
      Tracked n g (bound + w.snapshot.gain) rest

theorem tracked_append :
    Tracked n g bound (entries ++ later) ↔
      Tracked n g bound entries ∧
        Tracked n g (Snapshot.bound bound (entries.map snapshot)) later := by
  induction entries generalizing bound with
  | nil => simp [Tracked, Snapshot.bound]
  | cons w rest ih =>
    have hbound : Snapshot.bound (bound + w.snapshot.gain) (rest.map snapshot) =
        Snapshot.bound bound ((w :: rest).map snapshot) := by
      simp only [Snapshot.bound, List.map_cons, List.sum_cons]
      ring
    rw [List.cons_append, Tracked, Tracked, ih, hbound]
    tauto

theorem Tracked.balanced (h : Tracked n g bound (entries ++ w :: later)) :
    w.Balanced n g (Snapshot.bound bound ((entries ++ [w]).map snapshot)) := by
  obtain ⟨-, hbalanced, -⟩ := (tracked_append.mp h).2
  rw [List.map_append, ← Snapshot.bound_append]
  simpa [Snapshot.bound] using hbalanced

theorem Tracked.gain_nonneg (h : Tracked n g bound entries) :
    ∀ w ∈ entries, 0 ≤ w.snapshot.gain := by
  intro w hw
  obtain ⟨before, after, rfl⟩ := List.append_of_mem hw
  exact (tracked_append.mp h).2.1

/-! ### One pass -/

theorem gain_into {phase : Phase} (h : phase ≠ .adjustPotentials) (w : Work ℚ) :
    (w.into phase).snapshot.gain = 0 :=
  if_neg fun he => h (Option.some.inj he)

theorem gain_lowered (w : Work ℚ) (hsquare : w.matrix.values.IsSquare n)
    (hfits : w.coverage.Fits n) :
    w.lowered.snapshot.gain =
      leastUncovered w.coverage w.matrix.values * (n - w.matching.numSelected) := by
  have hsize : w.lowered.snapshot.size = n := (isSquare_shift hsquare hfits _).1
  have hnum : w.lowered.snapshot.numSelected = w.matching.numSelected :=
    length_selectedPairs w.matching
  rw [Snapshot.gain, hsize, hnum]
  rfl

theorem Sound.balanced_lowered (h : w.Sound n) (hb : w.Balanced n g bound) :
    w.lowered.Balanced n g (bound + w.lowered.snapshot.gain) := by
  intro p
  have hcount : (w.coverage.numCoveredRows : ℚ) + w.coverage.numCoveredCols =
      w.matching.numSelected := by
    rw [← h.numCovered_eq, Nat.cast_add]
  have hshift : w.lowered.matrix.values.along p = w.matrix.values.along p -
      leastUncovered w.coverage w.matrix.values *
        (n - w.coverage.numCoveredRows - w.coverage.numCoveredCols) :=
    along_shift p h.square h.fits _
  rw [gain_lowered w h.square h.fits, hshift, hb p, ← hcount]
  ring

theorem Sound.gain_lowered_nonneg (h : w.Sound n) (hd : ∃ col < n, w.matching.row? col = none) :
    0 ≤ w.lowered.snapshot.gain := by
  obtain ⟨i, hi, j, hj, hri, hcj⟩ := h.exists_uncovered hd
  obtain ⟨i₀, j₀, hcell, -, -⟩ := exists_leastUncovered h.square h.fits hi hj hri hcj
  have hnum : (w.matching.numSelected : ℚ) ≤ n := Nat.cast_le.mpr h.numSelected_le
  rw [gain_lowered w h.square h.fits]
  exact mul_nonneg (h.nonneg i₀ j₀ _ hcell) (sub_nonneg_of_le hnum)

theorem Pass.tracked (hp : Pass w entries w' flips) (h : w.IsReady n)
    (ho : w.coverage.isOptimal = false) (hb : w.Balanced n g bound) :
    Tracked n g bound entries ∧
      w'.Balanced n g (Snapshot.bound bound (entries.map snapshot)) := by
  cases hp with
  | @cover row col sel w₁ w₂ w₃ zero matched eq₁ eq₂ eq₃ =>
    -- only the last of the three entries is an adjustment, so only it raises the bound
    have hgain₁ : w₁.snapshot.gain = 0 := by rw [eq₁]; exact gain_into (by decide) _
    have hgain₂ : w₂.snapshot.gain = 0 := by rw [eq₂]; exact gain_into (by decide) _
    have hb₁ : w₁.Balanced n g bound := by rw [eq₁]; exact hb
    have hb₂ : w₂.Balanced n g bound := by rw [eq₂]; exact hb₁
    have hsound : w₂.next.Sound n := by
      rw [eq₂, eq₁]
      have hswapped := (h.covered ho zero matched).1
      exact ⟨hswapped.toCoherent, hswapped.both_covered⟩
    have hdeficient : ∃ col < n, w₂.next.matching.row? col = none := by
      rw [eq₂, eq₁]
      exact (h.found ho zero).deficient
    have hb₃ : w₃.Balanced n g (bound + w₃.snapshot.gain) := by
      rw [eq₃]
      exact hsound.balanced_lowered hb₂
    have hgain₃ : 0 ≤ w₃.snapshot.gain := by
      rw [eq₃]
      exact hsound.gain_lowered_nonneg hdeficient
    simp only [Tracked, Snapshot.bound, List.map_cons, List.map_nil, List.sum_cons, List.sum_nil,
      hgain₁, hgain₂, zero_add, add_zero]
    exact ⟨⟨le_rfl, hb₁, le_rfl, hb₂, hgain₃, hb₃, trivial⟩, hb₃⟩
  | @augment row col last prepared selected m w₁ w₂ w₃ zero free eq₁ chain flip eq₂ eq₃ =>
    have hgain₁ : w₁.snapshot.gain = 0 := by rw [eq₁]; exact gain_into (by decide) _
    have hgain₂ : w₂.snapshot.gain = 0 := by rw [eq₂]; exact gain_into (by decide) _
    have hgain₃ : w₃.snapshot.gain = 0 := by rw [eq₃]; exact gain_into (by decide) _
    have hb₁ : w₁.Balanced n g bound := by rw [eq₁]; exact hb
    have hb₂ : w₂.Balanced n g bound := by rw [eq₂]; exact hb₁
    have hb₃ : w₃.Balanced n g bound := by rw [eq₃]; exact hb₂
    simp only [Tracked, Snapshot.bound, List.map_cons, List.map_nil, List.sum_cons, List.sum_nil,
      hgain₁, hgain₂, hgain₃, add_zero]
    exact ⟨⟨le_rfl, hb₁, le_rfl, hb₂, le_rfl, hb₃, trivial⟩, hb₃⟩

/-! ### Many passes -/

theorem Passes.tracked (hp : Passes w entries w' passes flips) (h : w.IsReady n)
    (hb : w.Balanced n g bound) :
    Tracked n g bound entries ∧
      w'.Balanced n g (Snapshot.bound bound (entries.map snapshot)) := by
  induction hp generalizing bound with
  | none => exact ⟨trivial, by simpa [Snapshot.bound] using hb⟩
  | more ho first _ ih =>
    obtain ⟨htracked, hbalanced⟩ := first.tracked h ho hb
    obtain ⟨hlater, hlast⟩ := ih (first.ready h ho) hbalanced
    refine ⟨tracked_append.mpr ⟨htracked, hlater⟩, ?_⟩
    rw [List.map_append, ← Snapshot.bound_append]
    exact hlast

end Work

/-! ### Whole runs -/

namespace Run

variable {g : Grid ℚ} {entries : List (Work ℚ)} {w : Work ℚ} {p : Equiv.Perm (Fin g.length)}
variable {passes flips : Nat}

theorem tracked_completed (hg : g.IsSquare g.length)
    (search : (Work.selected g).next.Passes entries w passes flips) :
    Work.Tracked g.length g (CostMatrix.ofGrid g).reduce.2
      (completed g entries w p passes flips).entries := by
  have hreduced : (Work.reduced g).Balanced g.length g (CostMatrix.ofGrid g).reduce.2 :=
    fun p => along_reduce p hg
  have hselected : (Work.selected g).Balanced g.length g (CostMatrix.ofGrid g).reduce.2 := hreduced
  have hgain₁ : (Work.reduced g).snapshot.gain = 0 := Work.gain_into (by decide) _
  have hgain₂ : (Work.selected g).snapshot.gain = 0 := Work.gain_into (by decide) _
  have hgain₃ : (w.into .done).snapshot.gain = 0 := Work.gain_into (by decide) _
  obtain ⟨htracked, hbalanced⟩ := search.tracked (Work.selected_ready hg) hselected
  simp only [completed, List.cons_append, Work.Tracked, hgain₁, hgain₂, add_zero]
  refine ⟨le_rfl, hreduced, le_rfl, hselected, Work.tracked_append.mpr ⟨htracked, ?_⟩⟩
  simp only [Work.Tracked, hgain₃, add_zero]
  exact ⟨le_rfl, hbalanced, trivial⟩

/-- The values at the end are zero where the matching is. -/
theorem along_completed (hg : g.IsSquare g.length)
    (search : (Work.selected g).next.Passes entries w passes flips)
    (matched : ∀ i : Fin g.length, w.matching.col? i = some (p i : Nat)) :
    w.matrix.values.along p = 0 := by
  have hready : w.IsReady g.length := search.ready (Work.selected_ready hg)
  exact Finset.sum_eq_zero fun i _ => Grid.entry_eq (hready.selected_zero i (p i) (matched i))

end Run

end OptimalAssignment
