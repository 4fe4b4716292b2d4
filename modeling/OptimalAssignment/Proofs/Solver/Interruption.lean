import Mathlib
import OptimalAssignment.Proofs.Solver.Objection
import OptimalAssignment.Proofs.Solver.Trace

/-!
Runs that are cut short. A ceiling that is too low ends a run at the beginning of a pass, so what is
recorded is a prefix of the record of the full run, and the data at the end are those of its last
step but for the step number. An objection ends a run within a step, with the data of that step.
-/
namespace OptimalAssignment

section Prefix

variable {α : Type} [Scalar α] {w w' : Work α} {entries : List (Work α)} {passes flips : Nat}

/-- A search may be cut before any of its passes. -/
theorem Work.Passes.split (hp : Work.Passes w entries w' passes flips) {k : Nat} (hk : k < passes) :
    ∃ first w₁ flips₁ later, entries = first ++ later ∧ Work.Passes w first w₁ k flips₁ ∧
      w₁.coverage.isOptimal = false := by
  induction hp generalizing k with
  | none => exact absurd hk (Nat.not_lt_zero k)
  | @more w w₁ w' entries later flips passes flips' ho first rest ih =>
    cases k with
    | zero => exact ⟨[], w, 0, entries ++ later, rfl, .none, ho⟩
    | succ k =>
      obtain ⟨begun, w₂, flips₂, rest', rfl, hbegun, ho₂⟩ := ih (Nat.lt_of_succ_lt_succ hk)
      exact ⟨entries ++ begun, w₂, _, rest', (List.append_assoc ..).symm, .more ho first hbegun, ho₂⟩

variable [LinearOrder α] [LawfulScalar α] {g : Grid α} {ceiling : Ceiling}

/-- Under a ceiling that is too low a run stops right after a step of the full run. -/
theorem Run.solve_of_lt (hg : g.IsSquare g.length)
    (search : (Work.selected g).next.Passes entries w passes flips)
    (p : Equiv.Perm (Fin g.length)) (hb : ceiling.budget < passes) :
    ∃ last, (completed g entries w p passes flips).entries[3 * ceiling.budget + 1]? = some last ∧
      solve ceiling g =
        { entries := (completed g entries w p passes flips).entries.take (3 * ceiling.budget + 2)
          chosen := (initial g).chosen
          work := last.next
          result := .error ceiling.fault } := by
  obtain ⟨first, w₁, flips₁, later, rfl, hfirst, ho⟩ := search.split hb
  obtain ⟨-, before, last, hlast, rfl⟩ := hfirst.isChain (Work.selected_ready hg) rfl
  have hlength := hfirst.count_phases.1
  have hbefore : before.length = 3 * ceiling.budget := by
    have := congrArg List.length hlast
    simp only [List.length_cons, List.length_append, List.length_nil] at this
    omega
  have hentries : (completed g (first ++ later) w p passes flips).entries =
      Work.reduced g :: (Work.selected g :: first ++ (later ++ [w.into .done])) := by
    simp [completed]
  have hcut : (Work.selected g :: first).length = 3 * ceiling.budget + 1 := by simp [hlength]
  refine ⟨last, ?_, ?_⟩
  · rw [hentries, hlast, List.getElem?_cons_succ, List.append_assoc,
      List.getElem?_append_right hbefore.le, hbefore, Nat.sub_self]
    rfl
  · rw [(opened hg).solve_of_spent hfirst ho, hentries, List.take_succ_cons, List.take_left' hcut]

end Prefix

/-! ### Objections at a step -/

section Objected

variable {α : Type} [Scalar α]

/-- The steps of a run that numbers them are found by their numbers. -/
theorem Run.step_eq {run : Run α} {m k : Nat} {w : Work α}
    (hsteps : run.snapshots.map Snapshot.step = List.range m) (h : run.entries[k]? = some w) :
    w.step = k := by
  have hstep : (run.snapshots.map Snapshot.step)[k]? = some w.step := by
    simp [snapshots, h, Work.snapshot]
  rw [hsteps] at hstep
  obtain ⟨hk, hget⟩ := List.getElem?_eq_some_iff.mp hstep
  rw [← hget, List.getElem_range]

open Observer in
/-- A breach reported at a step, with neither phase nor snapshot. -/
theorem Session.solve_breach [Legible α] {s : Session α} {table : Table α} {g : Grid α}
    {run : Run α} {a : Assignment α} {before after : List (Observer α)} {words : String} {m k : Nat}
    (ht : table.accept s.finite = .ok g)
    (hrun : Run.solve (.ofValue g.length s.ceiling) g = run)
    (hsteps : run.snapshots.map Snapshot.step = List.range m) (hk : k < run.snapshots.length)
    (hs : s.observers = before ++ objector ⟨.atStep k, words, true, none, false⟩ :: after)
    (hb : ∀ o ∈ before, o.IsReader) (ha : ∀ o ∈ after, o.IsReader)
    (hcalm : ({ s with observers := before ++ after }.solve table).2.outcome = .ok a) :
    (s.solve table).1.observers =
        before.map (shown (run.snapshots.take (k + 1))) ++
          objector ⟨.atStep k, words, true, none, false⟩ ::
            after.map (shown (run.snapshots.take k)) ∧
      (∃ w, (s.solve table).1.work = some w ∧ w.step = k) ∧
      ∃ shown, run.snapshots[k]? = some shown ∧
        (s.solve table).2.outcome = .error (.breach words shown.phase (some shown)) := by
  rw [Run.snapshots, List.length_map] at hk
  have hentry := List.getElem?_eq_getElem hk
  have hstep : run.entries[k].step = k := Run.step_eq hsteps hentry
  have hentries : run.entries = run.entries.take k ++ run.entries[k] :: run.entries.drop (k + 1) := by
    rw [← List.drop_eq_getElem_cons hk, List.take_append_drop]
  have hother : ∀ w ∈ run.entries.take k, Occasion.atStep k ≠ .atStep w.step := by
    intro w hw he
    obtain ⟨i, hi, rfl⟩ := List.mem_take_iff_getElem.mp hw
    have hi' : run.entries[i].step = i :=
      Run.step_eq hsteps (List.getElem?_eq_getElem (by omega))
    have hsame := Occasion.atStep.inj he
    omega
  obtain ⟨hobservers, hwork, houtcome⟩ := solve_object ht hs hb ha hcalm
    ((congrArg Run.entries hrun).trans hentries) hother (by rw [hstep])
  refine ⟨?_, ⟨_, hwork, hstep⟩, run.entries[k].snapshot, ?_, houtcome⟩
  · rw [hobservers, List.take_append_getElem, List.map_take, List.map_take]
    rfl
  · rw [Run.snapshots, List.getElem?_map, hentry]
    rfl

end Objected

/-! ### Sessions -/

namespace Session

open Observer

variable {n : Nat} {g : Grid ℚ} {s : Session ℚ} {table : Table ℚ} {seen : List (Snapshot ℚ)}

/-- Runs that are cut short show a prefix of the full run. Under a ceiling on the passes that is not
too low nothing changes; under one that is, a breach is reported with the phase of the last step and
its data, the step number raised by one. If an observer reports a breach at some step, those in
front of it have been shown that step and those behind have not; the step number stays, and the
breach is reported with the phase and the data of the step. The other observers may write lines and
drawings, as long as they would not break off the run themselves. -/
theorem interrupted_prefix (hn : 1 ≤ n) (hg : g.IsSquare n) (ht : table.Holds g)
    (ho : s.observers = [.recorder seen]) (hc : s.ceiling = .null) :
    ∃ (a : Assignment ℚ) (snapshots : List (Snapshot ℚ)),
      (s.solve table).2.outcome = .ok a ∧
      (s.solve table).1.observers = [.recorder snapshots] ∧
      (∀ (M : Nat) (capped : Session ℚ), capped = { s with ceiling := .atom (.integer M) } →
        (a.iterations ≤ M →
          (capped.solve table).2.outcome = .ok a ∧
          (capped.solve table).1.observers = [.recorder snapshots]) ∧
        (M < a.iterations →
          (capped.solve table).1.observers = [.recorder (snapshots.take (3 * M + 2))] ∧
          ∃ last, snapshots[3 * M + 1]? = some last ∧
            (capped.solve table).2.outcome = .error (.breach
              s!"No perfect matching after {M} iterations" last.phase
              (some { last with step := last.step + 1 })))) ∧
      ∀ (k : Nat) (before after : List (Observer ℚ)) (words : String) (objected : Session ℚ),
        k < snapshots.length → (∀ o ∈ before, o.IsReader) → (∀ o ∈ after, o.IsReader) →
        (∃ b, ({ s with observers := before ++ after }.solve table).2.outcome = .ok b) →
        objected = { s with
          observers := before ++ .objector ⟨.atStep k, words, true, none, false⟩ :: after } →
        (objected.solve table).1.observers =
          before.map (shown (snapshots.take (k + 1))) ++
            .objector ⟨.atStep k, words, true, none, false⟩ ::
              after.map (shown (snapshots.take k)) ∧
        (∃ w, (objected.solve table).1.work = some w ∧ w.step = k) ∧
        ∃ shown, snapshots[k]? = some shown ∧
          (objected.solve table).2.outcome = .error (.breach words shown.phase (some shown)) := by
  have haccept : table.accept s.finite = .ok g := Table.accept_eq ht hn hg fun _ _ _ _ _ => rfl
  obtain rfl := hg.1
  obtain ⟨entries, w, p, passes, flips, search, optimal, matched, hrun, -, -⟩ :=
    Run.solveStandard_eq hg
  have hquiet : ∀ o ∈ s.observers, o.IsQuiet := by simp [ho, Observer.IsQuiet]
  have hceiling : Run.solve (.ofValue g.length s.ceiling) g =
      Run.completed g entries w p passes flips := by
    rw [hc, ← hrun]
    rfl
  obtain ⟨hobservers, houtcome⟩ := solve_spec hquiet haccept hceiling
  have hrecorded : ∀ run : Run ℚ, s.observers.map (fun o => o.fresh.seeing run.snapshots) =
      [.recorder run.snapshots] := by
    intro run
    simp [ho, Observer.fresh, Observer.seeing]
  rw [hrecorded] at hobservers
  refine ⟨_, _, houtcome, hobservers, ?_, ?_⟩
  · rintro M capped rfl
    refine ⟨fun hle => ?_, fun hlt => ?_⟩
    · have hcapped : Run.solve (.ofValue g.length (.atom (.integer M))) g =
          Run.completed g entries w p passes flips :=
        (Run.opened hg).solve_of_complete hg search optimal matched hle
      obtain ⟨hobservers', houtcome'⟩ :=
        solve_spec (s := { s with ceiling := .atom (.integer M) }) hquiet haccept hcapped
      exact ⟨houtcome', hobservers'.trans (hrecorded _)⟩
    · have hbudget : (Ceiling.ofValue g.length (.atom (.integer M))).budget < passes := hlt
      obtain ⟨last, hlast, hcapped⟩ := Run.solve_of_lt hg search p hbudget
      obtain ⟨hobservers', houtcome'⟩ :=
        solve_spec (s := { s with ceiling := .atom (.integer M) }) hquiet haccept hcapped
      refine ⟨?_, last.snapshot, ?_, houtcome'⟩
      · rw [hobservers', hrecorded, Run.snapshots, List.map_take]
        rfl
      · rw [Run.snapshots, List.getElem?_map]
        exact congrArg (Option.map Work.snapshot) hlast
  · rintro k before after words objected hk hb ha ⟨b, hcalm⟩ rfl
    exact solve_breach haccept hceiling (Run.inOrder hg search optimal p).steps hk rfl hb ha hcalm

/-- How many snapshots an observer has recorded. -/
def recordedCount {α : Type} : Observer α → Nat
  | .recorder seen => seen.length
  | _ => 0

/-- Three passes, cut short after one of them, and by an observer between two others. -/
theorem interrupted_prefix_three :
    1 ≤ 3 ∧ Grid.IsSquare 3 ([[1, 2, 3], [2, 4, 6], [3, 6, 9]] : Grid ℚ) ∧
      Table.Holds ([[1, 2, 3], [2, 4, 6], [3, 6, 9]] : Grid ℚ)
        (.rows [[1, 2, 3], [2, 4, 6], [3, 6, 9]]) ∧
      ∃ (a : Assignment ℚ) (snapshots : List (Snapshot ℚ)) (last shown : Snapshot ℚ),
        (({ observers := [.recorder []] } : Session ℚ).solve
          (.rows [[1, 2, 3], [2, 4, 6], [3, 6, 9]])).2.outcome = .ok a ∧
        a.iterations = 3 ∧
        (({ observers := [.recorder []], ceiling := .atom (.integer 1) } : Session ℚ).solve
          (.rows [[1, 2, 3], [2, 4, 6], [3, 6, 9]])).1.observers =
            [.recorder (snapshots.take 5)] ∧
        snapshots[4]? = some last ∧
        (({ observers := [.recorder []], ceiling := .atom (.integer 1) } : Session ℚ).solve
          (.rows [[1, 2, 3], [2, 4, 6], [3, 6, 9]])).2.outcome =
            .error (.breach "No perfect matching after 1 iterations" last.phase
              (some { last with step := last.step + 1 })) ∧
        (({ observers := [.recorder [], .objector ⟨.atStep 7, "halt", true, none, false⟩,
          .recorder []] } : Session ℚ).solve
            (.rows [[1, 2, 3], [2, 4, 6], [3, 6, 9]])).1.observers =
          [.recorder (snapshots.take 8), .objector ⟨.atStep 7, "halt", true, none, false⟩,
            .recorder (snapshots.take 7)] ∧
        snapshots[7]? = some shown ∧
        (({ observers := [.recorder [], .objector ⟨.atStep 7, "halt", true, none, false⟩,
          .recorder []] } : Session ℚ).solve
            (.rows [[1, 2, 3], [2, 4, 6], [3, 6, 9]])).2.outcome =
          .error (.breach "halt" shown.phase (some shown)) := by
  obtain ⟨a, snapshots, houtcome, hobservers, hcapped, hobjected⟩ :=
    interrupted_prefix (n := 3) (g := [[1, 2, 3], [2, 4, 6], [3, 6, 9]])
      (s := { observers := [.recorder []] }) (by decide) (by decide) .rows rfl rfl
  have hiterations : a.iterations = 3 := by
    have hrun : (({ observers := [.recorder []] } : Session ℚ).solve
        (.rows [[1, 2, 3], [2, 4, 6], [3, 6, 9]])).2.outcome.toOption.map (·.iterations) =
          some 3 := by cbv
    rw [houtcome] at hrun
    exact Option.some.inj hrun
  have hlength : 7 < snapshots.length := by
    have hrun : 7 < ((({ observers := [.recorder []] } : Session ℚ).solve
        (.rows [[1, 2, 3], [2, 4, 6], [3, 6, 9]])).1.observers.map recordedCount).sum := by cbv
    rwa [hobservers] at hrun
  have hcalm : ∃ b, (({ observers := [.recorder [], .recorder []] } : Session ℚ).solve
      (.rows [[1, 2, 3], [2, 4, 6], [3, 6, 9]])).2.outcome = .ok b := by
    have hrun : (({ observers := [.recorder [], .recorder []] } : Session ℚ).solve
        (.rows [[1, 2, 3], [2, 4, 6], [3, 6, 9]])).2.outcome.isOk := by cbv
    generalize (({ observers := [.recorder [], .recorder []] } : Session ℚ).solve
      (.rows [[1, 2, 3], [2, 4, 6], [3, 6, 9]])).2.outcome = outcome at hrun ⊢
    cases outcome with
    | ok b => exact ⟨b, rfl⟩
    | error _ => cases hrun
  obtain ⟨hpassed, last, hlast, hbreach⟩ := (hcapped 1 _ rfl).2 (by omega)
  obtain ⟨hseen, -, shown, hshown, hobjection⟩ := hobjected 7 [.recorder []] [.recorder []] "halt" _
    hlength (by simp [IsReader]) (by simp [IsReader]) hcalm rfl
  exact ⟨by decide, by decide, .rows, a, snapshots, last, shown, houtcome, hiterations, hpassed,
    hlast, hbreach, hseen, hshown, hobjection⟩

end Session

end OptimalAssignment
