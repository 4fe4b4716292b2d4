import Mathlib
import OptimalAssignment.Proofs.Cost.Exact
import OptimalAssignment.Proofs.Solver.Columns
import OptimalAssignment.Proofs.Solver.Pass

/-!
Searches over costs that obey no law. Which moves a search makes depends on the values only through
the zeros that it finds, so matched, prepared and covered lines fit together whatever the values
are: they do so as if every value were zero. A search may then come to a pass without an uncovered
zero, which only adjusts; still no pass stops at a fault.
-/
namespace OptimalAssignment

open Matching CostMatrix

/-! ### The grid of zeros -/

/-- The grid of zeros, whose invariant is about the lines alone. -/
def Grid.zeros (n : Nat) : Grid ℚ :=
  List.replicate n (List.replicate n 0)

theorem Grid.cell?_zeros_eq_some_iff {n i j : Nat} {x : ℚ} :
    (zeros n).cell? i j = some x ↔ i < n ∧ j < n ∧ 0 = x := by
  simp only [zeros, cell?_eq_some_iff, List.getElem?_replicate]
  constructor
  · rintro ⟨row, hrow, hx⟩
    split at hrow
    · obtain rfl := Option.some.inj hrow
      rw [List.getElem?_replicate] at hx
      split at hx
      · exact ⟨by assumption, by assumption, Option.some.inj hx⟩
      · contradiction
    · contradiction
  · rintro ⟨hi, hj, rfl⟩
    exact ⟨List.replicate n 0, by simp [hi], by simp [hj]⟩

theorem Grid.isSquare_zeros (n : Nat) : (zeros n).IsSquare n := by
  constructor
  · simp [zeros]
  · intro row hrow
    simp [List.eq_of_mem_replicate hrow]

section Shape

variable {β : Type} [Scalar β] [LinearOrder β] {n : Nat} {g : Grid β} {m : Matching Nat}
variable {c : Coverage}

/-- The lines of any search are aligned. -/
theorem Ready.zeros (h : Ready n g m c) : Ready n (Grid.zeros n) m c where
  square := Grid.isSquare_zeros n
  paired := h.paired
  fits := h.fits
  nonneg _ _ _ hx := (Grid.cell?_zeros_eq_some_iff.mp hx).2.2.le
  selected_zero row col hs :=
    Grid.cell?_zeros_eq_some_iff.mpr ⟨h.paired.row_lt hs, h.paired.col_lt hs, rfl⟩
  marked_zero row col hm := by
    obtain ⟨hr, hc⟩ := h.square.lt_of_cell? (h.marked_zero row col hm)
    exact Grid.cell?_zeros_eq_some_iff.mpr ⟨hr, hc, rfl⟩
  marked_open := h.marked_open
  one_cover := h.one_cover
  row_selected := h.row_selected
  col_selected := h.col_selected
  col_zero col hc _ := ⟨col, Grid.cell?_zeros_eq_some_iff.mpr ⟨hc, hc, rfl⟩⟩
  traced := h.traced
  marked_covered := h.marked_covered
  uncovered_zero ho := by
    obtain ⟨row, col, hz, hr, hc⟩ := h.uncovered_zero ho
    obtain ⟨hrow, hcol⟩ := h.square.lt_of_cell? hz
    exact ⟨row, col, Grid.cell?_zeros_eq_some_iff.mpr ⟨hrow, hcol, rfl⟩, hr, hc⟩
  deficient := h.deficient

end Shape

namespace Work

variable {α : Type} [Scalar α] {n row col : Nat} {w w' : Work α} {entries : List (Work α)}
variable {passes flips : Nat}

/-- The invariant between two passes over costs that obey no law. -/
structure Aligned (n : Nat) (w : Work α) : Prop where
  square : w.matrix.values.IsSquare n
  ready : Ready n (Grid.zeros n) w.matching w.coverage

theorem IsReady.aligned [LinearOrder α] (h : w.IsReady n) : w.Aligned n :=
  ⟨h.square, h.zeros⟩

/-! ### One pass -/

namespace Aligned

variable (h : w.Aligned n) (ho : w.coverage.isOptimal = false)
include h ho

theorem found (hz : uncoveredZero? w.coverage w.matrix.values = some (row, col)) :
    Found n row col (Grid.zeros n) (w.matching.marked row col) w.coverage := by
  obtain ⟨x, hx, -, hr, hc⟩ := exists_of_uncoveredZero? h.square h.ready.fits hz
  obtain ⟨hrow, hcol⟩ := h.square.lt_of_cell? hx
  exact h.ready.found ho (Grid.cell?_zeros_eq_some_iff.mpr ⟨hrow, hcol, rfl⟩) hr hc

theorem pass_eq (hp : Pass w entries w' flips) :
    w.pass = { entries := entries, work := w', flips := flips } :=
  hp.pass_eq h.square h.ready.paired fun _ _ hz => h.found ho hz

/-- A pass without an uncovered zero. -/
theorem pass_eq_of_none (hz : uncoveredZero? w.coverage w.matrix.values = none) :
    w.pass = { entries := [w.lowered], work := w.lowered.next } := by
  rw [pass, findUncoveredZero_eq h.square h.ready.fits, hz, Leg.orStop]
  exact adjust_eq_enter h.square h.ready.toCoherent (h.ready.deficient ho)

omit ho in
theorem lowered : w.lowered.next.Aligned n where
  square := isSquare_shift h.square h.ready.fits _
  ready := h.ready

end Aligned

theorem Pass.aligned (hp : Pass w entries w' flips) (h : w.Aligned n)
    (ho : w.coverage.isOptimal = false) : w'.Aligned n := by
  cases hp with
  | @cover row col sel w₁ w₂ w₃ zero matched eq₁ eq₂ eq₃ =>
    have hfound := h.found ho zero
    have hcoherent := hfound.exchanged matched
    rw [eq₃, eq₂, eq₁]
    exact
      { square := isSquare_shift h.square hcoherent.fits _
        ready :=
          { toCoherent := hcoherent
            marked_covered := fun _ => hfound.marked_exchanged matched
            uncovered_zero := fun _ => by
              obtain ⟨i, hi, j, hj, hri, hcj⟩ := hcoherent.exists_uncovered hfound.deficient
              exact ⟨i, j, Grid.cell?_zeros_eq_some_iff.mpr ⟨hi, hj, rfl⟩, hri, hcj⟩
            deficient := fun _ => hfound.deficient } }
  | @augment row col last prepared selected m w₁ w₂ w₃ zero free eq₁ chain flip eq₂ eq₃ =>
    have hfound := h.found ho zero
    rw [eq₁] at chain flip
    obtain ⟨hm, hmarks, hcol⟩ := hfound.flip_spec free chain flip
    rw [eq₃, eq₂, eq₁]
    exact ⟨h.square, hfound.flipped chain hm hmarks hcol⟩

/-! ### Many passes -/

theorem Passes.aligned (hp : Passes w entries w' passes flips) (h : w.Aligned n) :
    w'.Aligned n := by
  induction hp with
  | none => exact h
  | more ho first _ ih => exact ih (first.aligned h ho)

/-- The solver makes these passes, and goes on with what is left of the budget. -/
theorem Passes.repeatPasses_eq (hp : Passes w entries w' passes flips) (h : w.Aligned n)
    (exhausted : Fault) (budget : Nat) :
    repeatPasses exhausted (passes + budget) w =
      Leg.andThen { entries := entries, work := w', passes := passes, flips := flips }
        (repeatPasses exhausted budget) := by
  induction hp with
  | none => simp [Leg.andThen]
  | @more w w₁ w' entries later flips passes flips' ho first rest ih =>
    rw [Nat.add_right_comm, repeatPasses, if_neg (by simp [ho]), h.pass_eq ho first, Leg.countPass,
      Leg.andThen, ih (first.aligned h ho)]
    simp [Leg.andThen]
    omega

/-- One turn of a search: a pass, or an adjustment where no zero is found. -/
inductive Turn (w : Work α) : Work α → Prop
  | pass {entries : List (Work α)} {w' : Work α} {flips : Nat}
      (incomplete : w.coverage.isOptimal = false) (step : Pass w entries w' flips) : Turn w w'
  | adjust (incomplete : w.coverage.isOptimal = false)
      (none : uncoveredZero? w.coverage w.matrix.values = none) : Turn w w.lowered.next

theorem Turn.aligned (ht : Turn w w') (h : w.Aligned n) : w'.Aligned n := by
  cases ht with
  | pass incomplete step => exact step.aligned h incomplete
  | adjust => exact h.lowered

theorem Aligned.turns (h : w.Aligned n) (ht : Relation.ReflTransGen Turn w w') : w'.Aligned n := by
  induction ht with
  | refl => exact h
  | tail _ last ih => exact last.aligned ih

theorem Turn.given_eq (ht : Turn w w') : w'.matrix.given = w.matrix.given := by
  cases ht with
  | pass _ step => exact step.given_eq
  | adjust => rfl

theorem given_eq_of_turns (ht : Relation.ReflTransGen Turn w w') :
    w'.matrix.given = w.matrix.given := by
  induction ht with
  | refl => rfl
  | tail _ last ih => rw [last.given_eq, ih]

theorem Aligned.exists_turn (h : w.Aligned n) (ho : w.coverage.isOptimal = false) :
    Turn w w.pass.work ∧ w.pass.fault = none := by
  cases hz : uncoveredZero? w.coverage w.matrix.values with
  | none =>
    rw [h.pass_eq_of_none ho hz]
    exact ⟨.adjust ho hz, rfl⟩
  | some cell =>
    obtain ⟨row, col⟩ := cell
    obtain ⟨entries, w', flips, hpass⟩ := exists_pass_of_found hz (h.found ho hz)
    rw [h.pass_eq ho hpass]
    exact ⟨.pass ho hpass, rfl⟩

/-- A search takes one turn after the other, until every column is covered or the budget is
spent. -/
theorem Aligned.repeatPasses_turns (h : w.Aligned n) (exhausted : Fault) (budget : Nat) :
    Relation.ReflTransGen Turn w (repeatPasses exhausted budget w).work ∧
      ((repeatPasses exhausted budget w).fault = none ∧
          (repeatPasses exhausted budget w).work.coverage.isOptimal = true ∨
        (repeatPasses exhausted budget w).fault = some exhausted) := by
  induction budget generalizing w with
  | zero =>
    rw [repeatPasses]
    cases ho : w.coverage.isOptimal with
    | true => exact ⟨.refl, .inl ⟨rfl, ho⟩⟩
    | false => exact ⟨.refl, .inr rfl⟩
  | succ budget ih =>
    rw [repeatPasses]
    cases ho : w.coverage.isOptimal with
    | true => exact ⟨.refl, .inl ⟨rfl, ho⟩⟩
    | false =>
      obtain ⟨hturn, hfault⟩ := h.exists_turn ho
      obtain ⟨hturns, hend⟩ := ih (hturn.aligned h)
      simp only [Leg.countPass, Leg.andThen, hfault, Bool.false_eq_true, ↓reduceIte]
      exact ⟨.head hturn hturns, hend⟩

end Work

end OptimalAssignment
