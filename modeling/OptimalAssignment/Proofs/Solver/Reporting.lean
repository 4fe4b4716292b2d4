import OptimalAssignment.Proofs.Solver.Trace
import OptimalAssignment.Solver.Setup

/-!
What an observer of progress writes about a run that ends with an assignment. Its lines stand for
the steps whose numbers are multiples of its interval. The last line accounts for every pass, be its
steps written about or not: a pass that flips no path adjusts once, and no other pass adjusts.
-/
namespace OptimalAssignment

/-- The multiples of a number up to another. -/
theorem filter_mod_range (k m : Nat) :
    (List.range (m + 1)).filter (· % k = 0) = (List.range (m / k + 1)).map (· * k) := by
  induction m with
  | zero => simp
  | succ m ih =>
    rw [List.range_succ, List.filter_append, ih, Nat.succ_div]
    by_cases hdvd : k ∣ m + 1
    · have hquotient : (m / k + 1) * k = m + 1 := by
        rw [← Nat.succ_div_of_dvd hdvd]
        exact Nat.div_mul_cancel hdvd
      rw [if_pos hdvd, List.range_succ (n := m / k + 1), List.map_append]
      simp [Nat.mod_eq_zero_of_dvd hdvd, hquotient]
    · have hmod : (m + 1) % k ≠ 0 := fun h => hdvd (Nat.dvd_of_mod_eq_zero h)
      simp [hdvd, hmod]

/-! ### The steps and the adjustments of a run -/

namespace Run

variable {α : Type} [Scalar α] [LinearOrder α] [LawfulScalar α] {g : Grid α} {a : Assignment α}

/-- A run that ends with an assignment takes three steps for each pass and three besides, adjusts in
the passes that flip no path, and has a column for every row. -/
theorem account (hg : g.IsSquare g.length) {ceiling : Ceiling}
    (hr : (solve ceiling g).result = .ok a) :
    (solve ceiling g).snapshots.map Snapshot.step = List.range (3 * a.iterations + 3) ∧
      (solve ceiling g).snapshots.countP (·.phase = some .adjustPotentials) + a.augmentations =
        a.iterations ∧
      a.columns.length = g.length := by
  have hcourse := solve_course hg ceiling
  generalize solve ceiling g = run at hcourse hr
  cases hcourse with
  | @complete entries w passes flips p search optimal matched =>
    obtain rfl := Except.ok.inj hr
    refine ⟨(inOrder hg search optimal p).steps, ?_⟩
    have hmiddle : (entries.map Work.snapshot).countP (·.phase = some .adjustPotentials) =
        (entries.map Work.phase).count (some .adjustPotentials) := by
      rw [List.countP_map, List.count_eq_countP, List.countP_map]
      exact List.countP_congr fun _ _ => decide_eq_true_iff.trans beq_iff_eq.symm
    have hends : (completed g entries w p passes flips).snapshots.countP
        (·.phase = some .adjustPotentials) =
          (entries.map Work.snapshot).countP (·.phase = some .adjustPotentials) := by
      rw [snapshots_completed, List.countP_cons, List.countP_cons, List.countP_append]
      rfl
    rw [hends, hmiddle]
    exact ⟨search.count_adjustments, List.length_ofFn⟩
  | spent => cases hr

end Run

/-! ### Lines on the channel of observers -/

namespace Observer

variable {α : Type} [Legible α] {o : Observer α} {front back : List (Observer α)}

theorem IsQuiet.linesAt_eq (h : o.IsQuiet) (s : Snapshot α) : linesAt s o = [] := by
  cases o with
  | idle | recorder _ => rfl
  | _ => exact h.elim

theorem IsQuiet.linesAfter_shown (h : o.IsQuiet) (a : Assignment α)
    (snapshots : List (Snapshot α)) : linesAfter a (o.shown snapshots) = [] := by
  cases o with
  | idle | recorder _ => rfl
  | _ => exact h.elim

omit [Legible α] in
/-- If one observer alone writes, the lines of all are its own. -/
theorem flatMap_eq_of_silent {f : Observer α → List Journal.Line} (hfront : ∀ o ∈ front, f o = [])
    (hback : ∀ o ∈ back, f o = []) : (front ++ o :: back).flatMap f = f o := by
  rw [List.flatMap_append, List.flatMap_cons, List.flatMap_eq_nil_iff.mpr hfront,
    List.flatMap_eq_nil_iff.mpr hback, List.nil_append, List.append_nil]

/-- The lines that an observer of progress writes about some snapshots. -/
theorem flatMap_linesAt (k adjustments : Nat) (snapshots : List (Snapshot α)) :
    snapshots.flatMap (fun s => linesAt s (.progress k adjustments)) =
      (snapshots.filter (·.step % k = 0)).map fun s => line (progressText s) := by
  induction snapshots with
  | nil => rfl
  | cons s rest ih =>
    rw [List.flatMap_cons, ih, linesAt]
    by_cases hstep : s.step % k = 0 <;> simp [hstep]

/-- How the text about a step ends. -/
def stepEnding (s : Snapshot α) : String :=
  match s.phase with
  | some .adjustPotentials => " adjustment: " ++ Legible.brief s.adjustment
  | some .buildPath => s!" path: {s.preparedPath.length} prepared zero(s)"
  | _ => ""

theorem progressText_eq (s : Snapshot α) : progressText s =
    s!"Step {s.step} [" ++ s.phase.elim "" Phase.word ++ s!"] selected: {s.numSelected}/{s.size} " ++
      s!"covered rows: {s.rows.count true} covered cols: {s.cols.count true}" ++ stepEnding s := by
  unfold progressText stepEnding
  generalize s.phase.elim "" Phase.word = word
  cases s.phase with
  | none => simp [String.append_assoc, toString]
  | some phase => cases phase <;> simp [String.append_assoc, toString]

theorem summaryText_eq (a : Assignment α) (adjustments : Nat) : summaryText a adjustments =
    s!"Solved {a.columns.length}x{a.columns.length} assignment cost: {Legible.brief a.cost} " ++
      s!"iterations: {a.iterations} augmentations: {a.augmentations} " ++
      s!"adjustments: {adjustments} Time: 0.000s" := rfl

theorem channel_linesAt (s : Snapshot α) (o : Observer α) :
    ∀ l ∈ linesAt s o, l.channel = channel := by
  cases o with
  | progress interval _ =>
    intro l hl
    by_cases hstep : s.step % interval = 0
    · simp only [linesAt, if_pos hstep, List.mem_singleton] at hl
      rw [hl]
      rfl
    · simp [linesAt, hstep] at hl
  | _ => simp [linesAt]

end Observer

namespace Session

open Observer

variable {α : Type}

theorem channel_remarks (chosen : List (Nat × Nat)) (w : Work α) :
    ∀ l ∈ remarks chosen w, l.channel = Session.channel := by
  intro l hl
  unfold remarks at hl
  split at hl
  · obtain ⟨_, -, rfl⟩ := List.mem_map.mp hl
    rfl
  · rw [List.mem_singleton.mp hl]
  · cases hl

theorem filter_remarks (chosen : List (Nat × Nat)) (w : Work α) :
    (remarks chosen w).filter (·.channel = Observer.channel) = [] := by
  refine List.filter_eq_nil_iff.mpr fun l hl => ?_
  rw [channel_remarks chosen w l hl]
  decide

section Lines

variable {s : Session α} {front back : List (Observer α)} {k counted : Nat}
variable (ho : s.observers = front ++ .progress k counted :: back)
  (hfront : ∀ o ∈ front, o.IsQuiet) (hback : ∀ o ∈ back, o.IsQuiet)
include ho hfront hback

theorem isChronicler_of_quiet : ∀ o ∈ s.observers, o.IsChronicler := by
  intro o hmem
  rw [ho, List.mem_append, List.mem_cons] at hmem
  rcases hmem with hmem | rfl | hmem
  · exact (hfront o hmem).isChronicler
  · trivial
  · exact (hback o hmem).isChronicler

variable [Scalar α] [Legible α] {table : Table α} {g : Grid α} {a : Assignment α} {run : Run α}

theorem filter_flatMap_entries (chosen : List (Nat × Nat)) (entries : List (Work α)) :
    (entries.flatMap fun w =>
      s.observers.flatMap (linesAt w.snapshot) ++ remarks chosen w).filter
        (·.channel = Observer.channel) =
      ((entries.map Work.snapshot).filter (·.step % k = 0)).map fun x =>
        line (progressText x) := by
  rw [← flatMap_linesAt k counted, List.flatMap_map, List.filter_flatMap]
  refine List.flatMap_congr fun w _ => ?_
  rw [List.filter_append, filter_remarks, List.append_nil, ho,
    flatMap_eq_of_silent (fun o hmem => (hfront o hmem).linesAt_eq _)
      fun o hmem => (hback o hmem).linesAt_eq _]
  exact List.filter_eq_self.mpr fun l hl => decide_eq_true (channel_linesAt _ _ l hl)

theorem filter_lines_conclude (hr : run.result = .ok a) (snapshots : List (Snapshot α)) :
    (conclude (s.observers.map (shown snapshots)) run).lines.filter
        (·.channel = Observer.channel) =
      [line (summaryText a (snapshots.countP (·.phase = some .adjustPotentials)))] := by
  have hchroniclers := isChronicler_map_shown (isChronicler_of_quiet ho hfront hback) snapshots
  have hlines : (s.observers.map (shown snapshots)).flatMap (linesAfter a) =
      [line (summaryText a (snapshots.countP (·.phase = some .adjustPotentials)))] := by
    rw [List.flatMap_map, ho]
    exact flatMap_eq_of_silent (fun o hmem => (hfront o hmem).linesAfter_shown a _)
      fun o hmem => (hback o hmem).linesAfter_shown a _
  simp only [conclude, hr, endAll_eq hchroniclers, hlines]
  rfl

/-- The lines that a session writes on the channel of observers, if one observer of progress alone
writes and the run ends with an assignment. -/
theorem filter_lines_eq (ht : table.accept s.finite = .ok g)
    (hrun : Run.solve (.ofValue g.length s.ceiling) g = run) (hr : run.result = .ok a) :
    (s.solve table).2.lines.filter (·.channel = Observer.channel) =
      ((run.snapshots.filter (·.step % k = 0)).map fun x => line (progressText x)) ++
        [line (summaryText a (run.snapshots.countP (·.phase = some .adjustPotentials)))] := by
  rw [solve_eq_conclude (isChronicler_of_quiet ho hfront hback) ht hrun, List.filter_append,
    filter_flatMap_entries ho hfront hback, filter_lines_conclude ho hfront hback hr]
  rfl

end Lines

variable [Scalar α] [LinearOrder α] [LawfulScalar α] [Legible α]
variable {s : Session α} {table : Table α} {n : Nat} {g : Grid α} {interval : ℤ} {k counted : Nat}
variable {front back : List (Observer α)}

/-- The lines about a run reconcile with its result. An observer of progress with any interval,
among observers that only look on, writes about the steps whose numbers are multiples of the
interval, and after the last step about the whole run. The adjustments it tells are the passes that
flipped no path, whatever steps it wrote about and whatever it had counted in earlier runs. -/
theorem solve_reported (hn : 1 ≤ n) (hg : g.IsSquare n) (ht : table.Holds g)
    (hf : s.finite = true → ∀ row ∈ g, ∀ x ∈ row, Scalar.isFinite x = true)
    (hmade : progressEvery (.atom (.integer interval)) = .ok (progress k 0 : Observer α))
    (ho : s.observers = front ++ .progress k counted :: back)
    (hfront : ∀ o ∈ front, o.IsQuiet) (hback : ∀ o ∈ back, o.IsQuiet) :
    (k : ℤ) = max interval 1 ∧
      (s.ceiling = .null → ∃ a, (s.solve table).2.outcome = .ok a) ∧
      ∀ a, (s.solve table).2.outcome = .ok a →
        ∃ told : List (Snapshot α),
          told = (Run.solve (.ofValue n s.ceiling) g).snapshots.filter (·.step % k = 0) ∧
          told.map Snapshot.step = (List.range ((3 * a.iterations + 2) / k + 1)).map (· * k) ∧
          (s.solve table).2.lines.filter (·.channel = "kuhnmunkres.hooks") =
            told.map (fun x => ⟨"kuhnmunkres.hooks", .info,
              s!"Step {x.step} [" ++ x.phase.elim "" Phase.word ++
                s!"] selected: {x.numSelected}/{x.size} " ++
                s!"covered rows: {x.rows.count true} covered cols: {x.cols.count true}" ++
                stepEnding x⟩) ++
              [⟨"kuhnmunkres.hooks", .info,
                s!"Solved {n}x{n} assignment cost: {Legible.brief a.cost} " ++
                s!"iterations: {a.iterations} augmentations: {a.augmentations} " ++
                s!"adjustments: {a.iterations - a.augmentations} Time: 0.000s"⟩] ∧
          a.augmentations ≤ a.iterations := by
  obtain rfl := hg.1
  have haccept := Table.accept_eq ht hn hg hf
  have hc := isChronicler_of_quiet ho hfront hback
  obtain ⟨-, houtcome⟩ := solve_of_chroniclers hc haccept rfl
  refine ⟨?_, ?_, ?_⟩
  · have hk : (max interval 1).toNat = k := by
      injection Except.ok.inj hmade
    rw [← hk]
    exact Int.toNat_of_nonneg (le_trans zero_le_one (le_max_right interval 1))
  · intro hceiling
    obtain ⟨_, _, _, _, _, -, -, -, hrun, -, -⟩ := Run.solveStandard_eq hg
    exact ⟨_, by rw [houtcome, solve_of_null hceiling, hrun]; rfl⟩
  · intro a ha
    have hr := Run.outcome_eq_ok_iff.mp (houtcome.symm.trans ha)
    obtain ⟨hsteps, hadjusted, hcolumns⟩ := Run.account hg hr
    refine ⟨_, rfl, ?_, ?_, by omega⟩
    · have hfilter := List.filter_map (f := Snapshot.step) (p := (· % k = 0))
        (l := (Run.solve (.ofValue g.length s.ceiling) g).snapshots)
      rw [hsteps, filter_mod_range] at hfilter
      exact hfilter.symm
    · have hadjustments : a.iterations - a.augmentations =
          (Run.solve (.ofValue g.length s.ceiling) g).snapshots.countP
            (·.phase = some .adjustPotentials) := by omega
      rw [hadjustments]
      refine (filter_lines_eq ho hfront hback haccept rfl hr).trans ?_
      simp only [line, progressText_eq, summaryText_eq, Observer.channel, hcolumns]

theorem solve_reported_every_fifth :
    1 ≤ 3 ∧ Grid.IsSquare 3 ([[1, 2, 3], [2, 4, 6], [3, 6, 9]] : Grid ℚ) ∧
      Table.Holds ([[1, 2, 3], [2, 4, 6], [3, 6, 9]] : Grid ℚ)
        (.rows [[1, 2, 3], [2, 4, 6], [3, 6, 9]]) ∧
      (∀ row ∈ ([[1, 2, 3], [2, 4, 6], [3, 6, 9]] : Grid ℚ), ∀ x ∈ row,
        Scalar.isFinite x = true) ∧
      progressEvery (.atom (.integer 5)) = .ok (progress 5 0 : Observer ℚ) ∧
      ∃ (a : Assignment ℚ) (lines : List Journal.Line) (summary : Journal.Line),
        (({ observers := [.recorder [], .progress 5 7] } : Session ℚ).solve
          (.rows [[1, 2, 3], [2, 4, 6], [3, 6, 9]])).2.outcome = .ok a ∧
        (({ observers := [.recorder [], .progress 5 7] } : Session ℚ).solve
          (.rows [[1, 2, 3], [2, 4, 6], [3, 6, 9]])).2.lines.filter
            (·.channel = "kuhnmunkres.hooks") = lines ++ [summary] ∧
        lines.length = (3 * a.iterations + 2) / 5 + 1 ∧
        summary.text = s!"Solved 3x3 assignment cost: {Legible.brief a.cost} " ++
          s!"iterations: {a.iterations} augmentations: {a.augmentations} " ++
          s!"adjustments: {a.iterations - a.augmentations} Time: 0.000s" := by
  have hfinite : ∀ row ∈ ([[1, 2, 3], [2, 4, 6], [3, 6, 9]] : Grid ℚ), ∀ x ∈ row,
      Scalar.isFinite x = true := fun _ _ _ _ => rfl
  have hmade : progressEvery (.atom (.integer 5)) = .ok (progress 5 0 : Observer ℚ) := rfl
  have ho : ({ observers := [.recorder [], .progress 5 7] } : Session ℚ).observers =
      [.recorder []] ++ .progress 5 7 :: [] := rfl
  obtain ⟨-, hcompletes, htold⟩ := solve_reported (g := [[1, 2, 3], [2, 4, 6], [3, 6, 9]])
    (by decide : 1 ≤ 3) (by decide) .rows (fun _ => hfinite) hmade ho (by simp [IsQuiet]) (by simp)
  obtain ⟨a, houtcome⟩ := hcompletes rfl
  obtain ⟨told, -, hsteps, hlines, -⟩ := htold a houtcome
  have hlength : told.length = (3 * a.iterations + 2) / 5 + 1 := by
    rw [← List.length_map, hsteps, List.length_map, List.length_range]
  exact ⟨by decide, by decide, .rows, hfinite, hmade, a, _, _, houtcome, hlines,
    (List.length_map _).trans hlength, rfl⟩

end Session

end OptimalAssignment
