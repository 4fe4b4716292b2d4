import OptimalAssignment.Solver.Run
import OptimalAssignment.Proofs.Solver.Invariant

/-!
One pass of the search. From a state between two passes in which not every column is covered, a pass
finds an uncovered zero, and then either moves a cover and adjusts, or flips a path; it enters three
phases and never stops at a fault. Everything a pass can do is said here once.
-/
namespace OptimalAssignment.Work

open Matching CostMatrix

variable {α : Type} [Scalar α]

/-! ### The data at the phases of a pass -/

/-- An uncovered zero was found and prepared. -/
def found (row col : Nat) (w : Work α) : Work α :=
  ({ w with matching := w.matching.marked row col } : Work α).into .search

/-- The cover was moved from a column to a row. -/
def swapped (row col : Nat) (w : Work α) : Work α :=
  ({ w with coverage := w.coverage.exchanged row col } : Work α).into .rowHasSelection

/-- The values were adjusted. -/
def lowered (w : Work α) : Work α :=
  ({ w with
    matrix :=
      { w.matrix with
        values := shift w.coverage (leastUncovered w.coverage w.matrix.values) w.matrix.values }
    lastAdjustment := leastUncovered w.coverage w.matrix.values } : Work α).into .adjustPotentials

/-- A path was built. -/
def pathed (path : AlternatingPath Nat) (w : Work α) : Work α :=
  ({ w with path := some path } : Work α).into .buildPath

/-- The path was flipped, and the selected columns are covered. -/
def flipped (m : Matching Nat) (w : Work α) : Work α :=
  ({ w with matching := m, coverage := w.coverage.renewed m, path := none } : Work α).into .augment

/-- What one pass can do: the data at the phases it enters, the data at its end, and the number of
paths flipped. -/
inductive Pass (w : Work α) : List (Work α) → Work α → Nat → Prop
  | cover {row col sel : Nat} {w₁ w₂ w₃ : Work α}
      (zero : uncoveredZero? w.coverage w.matrix.values = some (row, col))
      (matched : w.matching.col? row = some sel)
      (eq₁ : w₁ = w.found row col) (eq₂ : w₂ = w₁.next.swapped row sel)
      (eq₃ : w₃ = w₂.next.lowered) : Pass w [w₁, w₂, w₃] w₃.next 0
  | augment {row col last : Nat} {prepared selected : List (Cell Nat)} {m : Matching Nat}
      {w₁ w₂ w₃ : Work α}
      (zero : uncoveredZero? w.coverage w.matrix.values = some (row, col))
      (free : w.matching.col? row = none)
      (eq₁ : w₁ = w.found row col)
      (chain : Chain w₁.matching col prepared selected last)
      (flip : AlternatingPath.flip ⟨(row, col) :: prepared, selected⟩ w₁.matching = (m, none))
      (eq₂ : w₂ = w₁.next.pathed ⟨(row, col) :: prepared, selected⟩)
      (eq₃ : w₃ = w₂.next.flipped m) : Pass w [w₁, w₂, w₃] w₃.next 1

/-- Passes one after the other, each begun while some column is uncovered. -/
inductive Passes : Work α → List (Work α) → Work α → Nat → Nat → Prop
  | none {w : Work α} : Passes w [] w 0 0
  | more {w w₁ w' : Work α} {entries later : List (Work α)} {flips passes flips' : Nat}
      (incomplete : w.coverage.isOptimal = false) (first : Pass w entries w₁ flips)
      (rest : Passes w₁ later w' passes flips') :
      Passes w (entries ++ later) w' (passes + 1) (flips + flips')

section Phases

variable {w w' : Work α} {entries : List (Work α)} {passes flips : Nat}

/-- The phases of a pass, and how many of them are flips. -/
theorem Pass.phases (hp : Pass w entries w' flips) :
    entries.map phase = [some .search, some .rowHasSelection, some .adjustPotentials] ∧ flips = 0 ∨
      entries.map phase = [some .search, some .buildPath, some .augment] ∧ flips = 1 := by
  cases hp with
  | cover _ _ eq₁ eq₂ eq₃ =>
    rw [eq₃, eq₂, eq₁]
    exact .inl ⟨rfl, rfl⟩
  | augment _ _ eq₁ _ _ eq₂ eq₃ =>
    rw [eq₃, eq₂, eq₁]
    exact .inr ⟨rfl, rfl⟩

/-- Every pass enters three phases, and every flip is the last of three. -/
theorem Pass.count_phases (hp : Pass w entries w' flips) :
    entries.length = 3 ∧ (entries.map phase).count (some .augment) = flips := by
  have hlength : (entries.map phase).length = entries.length := List.length_map _
  rw [← hlength]
  rcases hp.phases with ⟨h, rfl⟩ | ⟨h, rfl⟩
  · rw [h]
    exact ⟨rfl, rfl⟩
  · rw [h]
    exact ⟨rfl, rfl⟩

theorem Passes.count_phases (hp : Passes w entries w' passes flips) :
    entries.length = 3 * passes ∧ (entries.map phase).count (some .augment) = flips := by
  induction hp with
  | none => exact ⟨rfl, rfl⟩
  | more _ first _ ih =>
    obtain ⟨hlength, hcount⟩ := first.count_phases
    rw [List.length_append, List.map_append, List.count_append, hlength, hcount, ih.1, ih.2]
    exact ⟨by ring, rfl⟩

/-- Every pass ends with an adjustment or with a flip. -/
theorem Pass.count_adjustments (hp : Pass w entries w' flips) :
    (entries.map phase).count (some .adjustPotentials) + flips = 1 := by
  rcases hp.phases with ⟨h, rfl⟩ | ⟨h, rfl⟩
  · rw [h]
    rfl
  · rw [h]
    rfl

theorem Passes.count_adjustments (hp : Passes w entries w' passes flips) :
    (entries.map phase).count (some .adjustPotentials) + flips = passes := by
  induction hp with
  | none => rfl
  | more _ first _ ih =>
    have hfirst := first.count_adjustments
    rw [List.map_append, List.count_append]
    omega

theorem Passes.phase_ne_done (hp : Passes w entries w' passes flips) :
    ∀ e ∈ entries, e.phase ≠ some .done := by
  induction hp with
  | none => simp
  | more _ first _ ih =>
    intro e he
    rcases List.mem_append.mp he with he | he
    · have hmem := List.mem_map_of_mem he (f := phase)
      rcases first.phases with ⟨h, -⟩ | ⟨h, -⟩
      · rw [h] at hmem
        intro hdone
        simp [hdone] at hmem
      · rw [h] at hmem
        intro hdone
        simp [hdone] at hmem
    · exact ih e he

theorem Pass.given_eq (hp : Pass w entries w' flips) : w'.matrix.given = w.matrix.given := by
  cases hp with
  | cover _ _ eq₁ eq₂ eq₃ =>
    rw [eq₃, eq₂, eq₁]
    rfl
  | augment _ _ eq₁ _ _ eq₂ eq₃ =>
    rw [eq₃, eq₂, eq₁]
    rfl

theorem Passes.given_eq (hp : Passes w entries w' passes flips) :
    w'.matrix.given = w.matrix.given := by
  induction hp with
  | none => rfl
  | more _ first _ ih => rw [ih, first.given_eq]

end Phases

variable {n row col : Nat} {w w₁ w₂ w₃ w' : Work α} {entries : List (Work α)} {flips : Nat}

/-! ### The moves of a pass

The moves hang on the shape of the data alone: on the lines that are matched, prepared and covered.
So the values may be any square grid, and the invariant may be that of another grid, the shape. -/

section Moves

variable {β : Type} [Scalar β] [LinearOrder β] {shape : Grid β}

theorem adjust_eq_enter (hsquare : w.matrix.values.IsSquare n)
    (h : Coherent n shape w.matching w.coverage) (hd : ∃ col < n, w.matching.row? col = none) :
    w.adjust = { entries := [w.lowered], work := w.lowered.next } := by
  obtain ⟨i, hi, j, hj, hri, hcj⟩ := h.exists_uncovered hd
  rw [adjust, CostMatrix.adjust_eq hsquare h.fits hi hj hri hcj]
  rfl

theorem cover_eq {sel : Nat} (hsquare : w.matrix.values.IsSquare n)
    (h : Found n row col shape w.matching w.coverage)
    (hs : w.matching.col? row = some sel) (h₁ : w₁ = w.swapped row sel)
    (h₂ : w₂ = w₁.next.lowered) :
    w.cover row sel = { entries := [w₁, w₂], work := w₂.next } := by
  have hcoherent : Coherent n shape w₁.next.matching w₁.next.coverage := by
    rw [h₁]
    exact h.exchanged hs
  have hsquare₁ : w₁.next.matrix.values.IsSquare n := by
    rw [h₁]
    exact hsquare
  have hdeficient : ∃ col < n, w₁.next.matching.row? col = none := by
    rw [h₁]
    exact h.deficient
  have hfits : ({ w.coverage with rows := w.coverage.rows.set row true } : Coverage).Fits n :=
    ⟨h.fits.size_eq, by simp [h.fits.length_rows], h.fits.length_cols⟩
  have henter : Leg.enter .rowHasSelection
      { w with coverage := w.coverage.exchanged row sel } =
        { entries := [w₁], work := w₁.next } := by
    rw [h₁]
    rfl
  rw [cover, h.fits.coverRow_eq (h.paired.row_lt hs), Leg.orStop,
    hfits.uncoverCol_eq (h.paired.col_lt hs), Leg.orStop]
  refine (congrArg (Leg.andThen · adjust) henter).trans ?_
  rw [Leg.andThen, adjust_eq_enter hsquare₁ hcoherent hdeficient, h₂]
  rfl

omit [Scalar α] in
theorem augment_eq {prepared selected : List (Cell Nat)} {last : Nat} {m : Matching Nat}
    (h : Found n row col shape w.matching w.coverage)
    (hfree : w.matching.col? row = none)
    (hchain : Chain w.matching col prepared selected last)
    (hflip : AlternatingPath.flip ⟨(row, col) :: prepared, selected⟩ w.matching = (m, none))
    (h₁ : w₁ = w.pathed ⟨(row, col) :: prepared, selected⟩) (h₂ : w₂ = w₁.next.flipped m) :
    w.augment row col = { entries := [w₁, w₂], work := w₂.next, flips := 1 } := by
  have hbuild : AlternatingPath.build w.matching row col =
      .ok ⟨(row, col) :: prepared, selected⟩ :=
    (build_eq_iff h.paired h.mark_lt h.lt.2).mpr (.ends hchain)
  obtain ⟨hm, -, -⟩ := h.flip_spec hfree hchain hflip
  have hrest : flip ⟨(row, col) :: prepared, selected⟩ w₁.next =
      { entries := [w₂], work := w₂.next, flips := 1 } := by
    have hf : AlternatingPath.flip ⟨(row, col) :: prepared, selected⟩ w₁.next.matching =
        (m, none) := by
      rw [h₁]
      exact hflip
    have hc : w₁.next.coverage.coverSelected m = .ok (w₁.next.coverage.renewed m) := by
      rw [h₁]
      exact h.fits.coverSelected_eq hm
    simp only [flip, hf, hc, Leg.orStop, h₂]
    rfl
  have henter : Leg.enter .buildPath
      { w with path := some ⟨(row, col) :: prepared, selected⟩ } =
        { entries := [w₁], work := w₁.next } := by
    rw [h₁]
    rfl
  rw [augment, hbuild, Leg.orStop, henter, Leg.andThen, hrest]
  rfl

/-! ### Passes that find a zero -/

section Search

variable (hsquare : w.matrix.values.IsSquare n) (hpaired : w.matching.Paired n)
  (hzero : uncoveredZero? w.coverage w.matrix.values = some (row, col))
  (h : Found n row col shape (w.matching.marked row col) w.coverage)
include hsquare hpaired hzero h

/-- A pass whose zero lies in a row with a selected zero. -/
theorem pass_of_matched {sel : Nat} (hs : w.matching.col? row = some sel) :
    w.pass = Leg.andThen { entries := [w.found row col], work := (w.found row col).next }
      (cover row sel) := by
  have hrow := h.lt.1
  have hsel : (w.matching.marked row col).selectedCol row = .ok (some sel) := by
    rw [h.paired.selectedCol_eq hrow]
    exact congrArg Except.ok hs
  simp only [pass, findUncoveredZero_eq hsquare h.fits, hzero, search, hpaired.prepare_eq hrow,
    Leg.orStop, Leg.enter, Leg.andThen, into, next, found, hsel]

/-- A pass whose zero lies in a row without a selected zero. -/
theorem pass_of_free (hs : w.matching.col? row = none) :
    w.pass = Leg.andThen { entries := [w.found row col], work := (w.found row col).next }
      (augment row col) := by
  have hrow := h.lt.1
  have hsel : (w.matching.marked row col).selectedCol row = .ok none := by
    rw [h.paired.selectedCol_eq hrow]
    exact congrArg Except.ok hs
  simp only [pass, findUncoveredZero_eq hsquare h.fits, hzero, search, hpaired.prepare_eq hrow,
    Leg.orStop, Leg.enter, Leg.andThen, into, next, found, hsel]

end Search

/-- The solver's pass does what the relation says, and does not stop at a fault. -/
theorem Pass.pass_eq (hp : Pass w entries w' flips) (hsquare : w.matrix.values.IsSquare n)
    (hpaired : w.matching.Paired n)
    (h : ∀ row col, uncoveredZero? w.coverage w.matrix.values = some (row, col) →
      Found n row col shape (w.matching.marked row col) w.coverage) :
    w.pass = { entries := entries, work := w', flips := flips } := by
  cases hp with
  | @cover row col sel w₁ w₂ w₃ zero matched eq₁ eq₂ eq₃ =>
    have hfound := h row col zero
    rw [eq₁] at eq₂
    rw [pass_of_matched hsquare hpaired zero hfound matched, Leg.andThen,
      cover_eq (w := (w.found row col).next) hsquare hfound matched eq₂ eq₃, eq₁]
    rfl
  | @augment row col last prepared selected m w₁ w₂ w₃ zero free eq₁ chain flip eq₂ eq₃ =>
    have hfound := h row col zero
    rw [eq₁] at eq₂ chain flip
    rw [pass_of_free hsquare hpaired zero hfound free, Leg.andThen,
      augment_eq (w := (w.found row col).next) hfound free chain flip eq₂ eq₃, eq₁]
    rfl

/-- A pass that finds a zero is of one of the two kinds. -/
theorem exists_pass_of_found
    (hzero : uncoveredZero? w.coverage w.matrix.values = some (row, col))
    (h : Found n row col shape (w.matching.marked row col) w.coverage) :
    ∃ entries w' flips, Pass w entries w' flips := by
  cases hcol : w.matching.col? row with
  | some sel => exact ⟨_, _, _, .cover hzero hcol rfl rfl rfl⟩
  | none =>
    obtain ⟨prepared, selected, last, hchain⟩ := h.exists_chain
    obtain ⟨m, hflip, -⟩ := flip_spec h.paired h.mark_lt hchain h.lt.1 h.lt.2 hcol
    exact ⟨_, _, _, .augment hzero hcol rfl hchain hflip rfl rfl⟩

end Moves

/-! ### Passes of a lawful search -/

variable [LinearOrder α]

/-- The invariant between two passes, of the data of a run. -/
def IsReady (n : Nat) (w : Work α) : Prop :=
  Ready n w.matrix.values w.matching w.coverage

variable [LawfulScalar α]

/-- There is an uncovered zero, so a pass begins with a search and not with an adjustment. -/
theorem IsReady.exists_uncoveredZero (h : w.IsReady n) (ho : w.coverage.isOptimal = false) :
    ∃ row col, uncoveredZero? w.coverage w.matrix.values = some (row, col) := by
  obtain ⟨row, col, hz, hr, hc⟩ := h.uncovered_zero ho
  obtain ⟨⟨row', col'⟩, hsome⟩ :=
    Option.ne_none_iff_exists'.mp (uncoveredZero?_ne_none h.square h.fits hz hr hc)
  exact ⟨row', col', hsome⟩

theorem IsReady.found (h : w.IsReady n) (ho : w.coverage.isOptimal = false)
    (hz : uncoveredZero? w.coverage w.matrix.values = some (row, col)) :
    Found n row col w.matrix.values (w.matching.marked row col) w.coverage := by
  obtain ⟨hcell, hr, hc⟩ := uncoveredZero?_spec h.square h.fits hz
  exact Ready.found h ho hcell hr hc

theorem IsReady.pass_eq (h : w.IsReady n) (ho : w.coverage.isOptimal = false)
    (hp : Pass w entries w' flips) :
    w.pass = { entries := entries, work := w', flips := flips } :=
  hp.pass_eq h.square h.paired fun _ _ hz => h.found ho hz

/-- Every pass is one of the two kinds. -/
theorem IsReady.exists_pass (h : w.IsReady n) (ho : w.coverage.isOptimal = false) :
    ∃ entries w' flips, Pass w entries w' flips := by
  obtain ⟨row, col, hz⟩ := h.exists_uncoveredZero ho
  exact exists_pass_of_found hz (h.found ho hz)

end OptimalAssignment.Work
