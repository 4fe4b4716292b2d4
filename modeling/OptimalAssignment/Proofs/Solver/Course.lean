import OptimalAssignment.Proofs.Matching.Greedy
import OptimalAssignment.Proofs.Solver.Progress

/-!
The course of a whole run: reduction, initial selection, passes, end. The selection starts a phase,
so passes go on until every column is covered or the ceiling is reached; in the first case the
selected zeros are those of a permutation, whose given costs are added up. Over costs that obey no
law a run can also end at the selection, at a row without a zero.
-/
namespace OptimalAssignment

open CostMatrix Matching

variable {α : Type} [Scalar α]

/-- The initial selection on the reduced values. -/
def Run.initial (g : Grid α) : Greedy.Outcome Nat :=
  Greedy.run (CostMatrix.ofGrid g).reduce.1.zeroMask (.empty Nat g.length)

/-- The first two steps of a run. -/
def Run.opening (g : Grid α) : Leg α :=
  (Leg.enter .reduce { Work.start g with matrix := (CostMatrix.ofGrid g).reduce.1 }).andThen
    (Work.select (initial g))

/-- A whole run but for its end. -/
def Run.legs (ceiling : Ceiling) (g : Grid α) : Leg α :=
  ((Leg.enter .reduce { Work.start g with matrix := (CostMatrix.ofGrid g).reduce.1 }).andThen
    (Work.select (initial g))).andThen (Work.repeatPasses ceiling.fault ceiling.budget)

theorem Run.legs_eq (ceiling : Ceiling) (g : Grid α) :
    legs ceiling g = (opening g).andThen (Work.repeatPasses ceiling.fault ceiling.budget) :=
  rfl

theorem Run.solve_eq_finish (ceiling : Ceiling) (g : Grid α) :
    solve ceiling g =
      { entries := (finish (ofGrid g).reduce.2 (legs ceiling g)).1.entries
        chosen := (initial g).chosen
        work := (finish (ofGrid g).reduce.2 (legs ceiling g)).1.work
        result := (finish (ofGrid g).reduce.2 (legs ceiling g)).2 } :=
  rfl

namespace Work

/-- The values were reduced. -/
def reduced (g : Grid α) : Work α :=
  ({ start g with matrix := (CostMatrix.ofGrid g).reduce.1 } : Work α).into .reduce

/-- Zeros were selected and their columns covered. -/
def selected (g : Grid α) : Work α :=
  ({ (reduced g).next with
    matching := (Run.initial g).matching
    coverage := (Coverage.empty g.length).renewed (Run.initial g).matching } : Work α).into .select

end Work

/-- A run that ends with a permutation. -/
def Run.completed (g : Grid α) (entries : List (Work α)) (w : Work α)
    (p : Equiv.Perm (Fin g.length)) (passes flips : Nat) : Run α where
  entries := Work.reduced g :: Work.selected g :: entries ++ [w.into .done]
  chosen := (Run.initial g).chosen
  work := (w.into .done).next
  result := .ok
    { columns := Columns.ofPerm p
      cost := LaneSum.total (List.ofFn fun i : Fin g.length => g.entry i (p i))
      offset := (CostMatrix.ofGrid g).reduce.2
      iterations := passes
      augmentations := flips }

/-- The two ways a run can go. -/
inductive Run.Course (ceiling : Ceiling) (g : Grid α) : Run α → Prop
  | complete {entries : List (Work α)} {w : Work α} {passes flips : Nat}
      {p : Equiv.Perm (Fin g.length)}
      (search : (Work.selected g).next.Passes entries w passes flips)
      (optimal : w.coverage.isOptimal = true)
      (matched : ∀ i : Fin g.length, w.matching.col? i = some (p i : Nat)) :
      Course ceiling g (completed g entries w p passes flips)
  | spent {entries : List (Work α)} {w : Work α} {flips : Nat}
      (search : (Work.selected g).next.Passes entries w ceiling.budget flips)
      (incomplete : w.coverage.isOptimal = false) :
      Course ceiling g
        { entries := Work.reduced g :: Work.selected g :: entries
          chosen := (Run.initial g).chosen
          work := w
          result := .error ceiling.fault }

/-! ### Runs over any costs -/

section Lawless

variable {ceiling : Ceiling} {g : Grid α} {w : Work α} {entries : List (Work α)}
variable {passes flips : Nat}

theorem zeroMask_eq_some_iff {m : CostMatrix α} {row col : Nat} :
    m.zeroMask.cell? row col = some true ↔
      ∃ x, m.values.cell? row col = some x ∧ Scalar.isZero x = true := by
  rw [zeroMask, Grid.cell?_map, Option.map_eq_some_iff]

/-- A run whose selection ends without a fault. -/
structure Run.Opened (g : Grid α) : Prop where
  fault_eq : (initial g).fault = none
  marks : ∀ row, (initial g).matching.mark? row = none
  selected : ∀ row col, (initial g).matching.col? row = some col →
    (ofGrid g).reduce.1.zeroMask.cell? row col = some true
  aligned : (Work.selected g).next.Aligned g.length

/-- A zero in every reduced row is enough for the selection. -/
theorem Run.opened_of_rows (hg : g.IsSquare g.length)
    (hrows : ∀ row < g.length, ∃ col, (ofGrid g).reduce.1.zeroMask.cell? row col = some true) :
    Opened g := by
  have hsquare : (ofGrid g).reduce.1.values.IsSquare g.length := isSquare_reduce hg
  obtain ⟨hfault, hmarks, hserving⟩ := Greedy.run_spec (Grid.isSquare_map hsquare Scalar.isZero)
    (paired_empty g.length) hrows
  have hnone : ∀ row, (initial g).matching.mark? row = none := by
    intro row
    rw [initial, mark?, zeroMask, hmarks]
    exact content_replicate g.length
  have hready : Ready g.length (Grid.zeros g.length) (initial g).matching
      ((Coverage.empty g.length).renewed (initial g).matching) := by
    refine ready_renewed (Grid.isSquare_zeros _) hserving.paired (Coverage.fits_empty _) ?_ ?_
      hnone ?_
    · exact fun _ _ _ hx => (Grid.cell?_zeros_eq_some_iff.mp hx).2.2.le
    · exact fun _ _ hs => Grid.cell?_zeros_eq_some_iff.mpr
        ⟨hserving.paired.row_lt hs, hserving.paired.col_lt hs, rfl⟩
    · exact fun col hc _ => ⟨col, Grid.cell?_zeros_eq_some_iff.mpr ⟨hc, hc, rfl⟩⟩
  exact ⟨hfault, hnone, hserving.zero, hsquare, hready⟩

/-- The first two phases. -/
theorem Run.Opened.opening_eq (h : Opened g) :
    opening g =
      { entries := [Work.reduced g, Work.selected g], work := (Work.selected g).next } := by
  have hcover : (Work.reduced g).next.coverage.coverSelected (initial g).matching =
      .ok ((Coverage.empty g.length).renewed (initial g).matching) :=
    (Coverage.fits_empty g.length).coverSelected_eq h.aligned.ready.paired
  have hselect : Work.select (initial g) (Work.reduced g).next =
      { entries := [Work.selected g], work := (Work.selected g).next } := by
    simp only [Work.select, h.fault_eq, hcover, Leg.orStop]
    rfl
  have henter : Leg.enter .reduce { Work.start g with matrix := (ofGrid g).reduce.1 } =
      { entries := [Work.reduced g], work := (Work.reduced g).next } := rfl
  rw [opening, henter, Leg.andThen, hselect]
  rfl

/-- The last phase, if the search ends with a permutation. -/
theorem Run.finish_eq (hg : g.IsSquare g.length) (hgiven : w.matrix.given = g)
    (hsquare : w.matrix.values.IsSquare g.length) (hpaired : w.matching.Paired g.length)
    {p : Equiv.Perm (Fin g.length)}
    (matched : ∀ i : Fin g.length, w.matching.col? i = some (p i : Nat))
    (entries : List (Work α)) (passes flips : Nat) :
    finish (ofGrid g).reduce.2
        { entries := Work.reduced g :: Work.selected g :: entries, work := w, passes, flips } =
      ({ entries := (completed g entries w p passes flips).entries
         work := (completed g entries w p passes flips).work, passes, flips },
        (completed g entries w p passes flips).result) := by
  have hcost : w.matrix.costOf (Columns.ofPerm p) =
      .ok (LaneSum.total (List.ofFn fun i : Fin g.length => g.entry i (p i))) := by
    have := Columns.costOf_ofPerm (m := w.matrix) (by rw [hgiven]; exact hg) hsquare.1 p
    rw [hgiven] at this
    exact this
  simp only [finish, hpaired.filterMap_colOfRow matched, hcost]
  rfl

theorem Run.Opened.legs_eq (h : Opened g)
    (search : (Work.selected g).next.Passes entries w passes flips)
    (hb : passes ≤ ceiling.budget) :
    legs ceiling g = Leg.andThen
      { entries := Work.reduced g :: Work.selected g :: entries, work := w, passes, flips }
      (Work.repeatPasses ceiling.fault (ceiling.budget - passes)) := by
  have hrepeat := search.repeatPasses_eq h.aligned ceiling.fault (ceiling.budget - passes)
  rw [Nat.add_sub_cancel' hb] at hrepeat
  rw [Run.legs_eq, h.opening_eq, Leg.andThen, hrepeat]
  simp [Leg.andThen]

/-- A search within the ceiling that ends with every column covered is the search of the run. -/
theorem Run.Opened.solve_of_complete (h : Opened g) (hg : g.IsSquare g.length)
    (search : (Work.selected g).next.Passes entries w passes flips)
    (optimal : w.coverage.isOptimal = true) {p : Equiv.Perm (Fin g.length)}
    (matched : ∀ i : Fin g.length, w.matching.col? i = some (p i : Nat))
    (hb : passes ≤ ceiling.budget) :
    solve ceiling g = completed g entries w p passes flips := by
  have hw := search.aligned h.aligned
  have hstay : Work.repeatPasses ceiling.fault (ceiling.budget - passes) w = .stay w := by
    cases ceiling.budget - passes <;> simp [Work.repeatPasses, optimal]
  rw [solve_eq_finish, h.legs_eq search hb, Leg.andThen, hstay]
  simp only [Leg.stay, List.append_nil, Nat.add_zero,
    finish_eq hg search.given_eq hw.square hw.ready.paired matched]
  rfl

/-- A search that spends the budget with a column left uncovered is all of the run. -/
theorem Run.Opened.solve_of_spent (h : Opened g)
    (search : (Work.selected g).next.Passes entries w ceiling.budget flips)
    (incomplete : w.coverage.isOptimal = false) :
    solve ceiling g =
      { entries := Work.reduced g :: Work.selected g :: entries
        chosen := (initial g).chosen
        work := w
        result := .error ceiling.fault } := by
  have hstop : Work.repeatPasses ceiling.fault (ceiling.budget - ceiling.budget) w =
      .stop w ceiling.fault := by
    simp [Work.repeatPasses, incomplete]
  rw [solve_eq_finish, h.legs_eq search le_rfl, Leg.andThen, hstop]
  simp [finish, Leg.stop]

/-- How a run over any costs can end: at a row without a zero, at the ceiling, or with the
permutation that the turns of its search lead to. -/
inductive Run.Ending (ceiling : Ceiling) (g : Grid α) : Except Fault (Assignment α) → Prop
  | exhausted {row other : Nat} (inside : row < g.length)
      (barren : ∀ col, (ofGrid g).reduce.1.zeroMask.cell? row col ≠ some true) :
      Ending ceiling g (.error (.rowExhausted other))
  | spent : Ending ceiling g (.error ceiling.fault)
  | complete {w : Work α} {p : Equiv.Perm (Fin g.length)} {a : Assignment α}
      (fruitful : ∀ row < g.length, ∃ col, (ofGrid g).reduce.1.zeroMask.cell? row col = some true)
      (turns : Relation.ReflTransGen Work.Turn (Work.selected g).next w)
      (matched : ∀ i : Fin g.length, w.matching.col? i = some (p i : Nat))
      (columns_eq : a.columns = Columns.ofPerm p) : Ending ceiling g (.ok a)

theorem Run.solve_ending (hg : g.IsSquare g.length) (ceiling : Ceiling) :
    Ending ceiling g (solve ceiling g).result := by
  have hmask : (ofGrid g).reduce.1.zeroMask.IsSquare g.length :=
    Grid.isSquare_map (isSquare_reduce hg) Scalar.isZero
  by_cases hrows : ∀ row < g.length, ∃ col, (ofGrid g).reduce.1.zeroMask.cell? row col = some true
  · have hopened := opened_of_rows hg hrows
    obtain ⟨hturns, hend⟩ := hopened.aligned.repeatPasses_turns ceiling.fault ceiling.budget
    have hgiven := Work.given_eq_of_turns hturns
    have hlast := hopened.aligned.turns hturns
    rw [solve_eq_finish, legs_eq, hopened.opening_eq, Leg.andThen]
    generalize Work.repeatPasses ceiling.fault ceiling.budget (Work.selected g).next = leg at *
    rcases hend with ⟨hfault, ho⟩ | hfault
    · obtain ⟨p, matched⟩ := hlast.ready.exists_perm ho
      simp only [hfault, List.cons_append, List.nil_append, Nat.zero_add,
        finish_eq hg hgiven hlast.square hlast.ready.paired matched]
      exact .complete hrows hturns matched rfl
    · simp only [hfault, finish]
      exact .spent
  · push Not at hrows
    obtain ⟨row, hrow, hnone⟩ := hrows
    obtain ⟨other, -, -, -, hrun⟩ := Greedy.run_exhausted hmask hrow hnone (.empty Nat g.length)
    have hresult : (solve ceiling g).result = .error (.rowExhausted other) := by
      have hinitial : (initial g).fault = some (.rowExhausted other) := by rw [initial, hrun]
      simp only [solve_eq_finish, legs, Leg.enter, Leg.andThen, Work.select, hinitial, Leg.stop,
        finish]
    rw [hresult]
    exact .exhausted hrow hnone

end Lawless

/-! ### Runs over lawful costs -/

variable [LinearOrder α] [LawfulScalar α] {n : Nat} {g : Grid α}

theorem Run.opened (hg : g.IsSquare g.length) : Opened g :=
  opened_of_rows hg fun _ hr => (exists_zero_reduce_row hg hr).imp fun _ hz =>
    zeroMask_eq_some_iff.mpr ⟨0, hz, (LawfulScalar.isZero_iff 0).mpr rfl⟩

theorem Work.selected_ready (hg : g.IsSquare g.length) : (selected g).IsReady g.length := by
  have hopened := Run.opened hg
  refine ready_renewed (isSquare_reduce hg) hopened.aligned.ready.paired (Coverage.fits_empty _)
    (fun _ _ _ => reduce_nonneg hg) ?_ hopened.marks fun col hc _ => exists_zero_reduce_col hg hc
  intro row col hs
  obtain ⟨x, hx, hzero⟩ := zeroMask_eq_some_iff.mp (hopened.selected row col hs)
  exact hx.trans (congrArg some ((LawfulScalar.isZero_iff x).mp hzero))

theorem Run.solve_course (hg : g.IsSquare g.length) (ceiling : Ceiling) :
    Course ceiling g (solve ceiling g) := by
  have hready : (Work.selected g).next.IsReady g.length := Work.selected_ready hg
  obtain ⟨entries, w, passes, flips, search, hle, hbudget⟩ := hready.exists_passes ceiling.budget
  cases ho : w.coverage.isOptimal with
  | true =>
    obtain ⟨p, matched⟩ := (search.ready hready).exists_perm ho
    rw [(opened hg).solve_of_complete hg search ho matched hle]
    exact .complete search ho matched
  | false =>
    obtain rfl := hbudget ho
    rw [(opened hg).solve_of_spent search ho]
    exact .spent search ho

end OptimalAssignment
