import OptimalAssignment.Proofs.Cost.Table
import OptimalAssignment.Solver.Session

/-!
Sessions whose observers only look on, be it that they write lines about what they see. Such
observers neither fail nor touch what they are shown, so the outcome of a session is the result of
the run, and the observers are left with the snapshots of the run, whatever they had seen before.
-/
namespace OptimalAssignment

variable {α : Type}

namespace Observer

/-- Whether an observer does nothing but look on. -/
def IsQuiet : Observer α → Prop
  | idle | recorder _ => True
  | _ => False

/-- An observer that has seen more snapshots. -/
def seeing (snapshots : List (Snapshot α)) : Observer α → Observer α
  | recorder seen => recorder (seen ++ snapshots)
  | observer => observer

/-- An observer that has seen nothing. -/
def fresh : Observer α → Observer α
  | recorder _ => recorder []
  | observer => observer

/-- An observer to which some snapshots were shown since the run began. -/
def shown (snapshots : List (Snapshot α)) : Observer α → Observer α
  | recorder _ => recorder snapshots
  | progress interval _ =>
    progress interval (snapshots.countP (·.phase = some .adjustPotentials))
  | drawings folder cell _ => drawings folder cell snapshots.length
  | observer => observer

section Lines

variable [Legible α]

/-- The text of the line that sums up a run. -/
def summaryText (a : Assignment α) (adjustments : Nat) : String :=
  let n := a.columns.length
  s!"Solved {n}x{n} assignment cost: {Legible.brief a.cost} "
    ++ s!"iterations: {a.iterations} augmentations: {a.augmentations} "
    ++ s!"adjustments: {adjustments} Time: 0.000s"

/-- The lines that an observer of progress writes about a snapshot; others write none. -/
def linesAt (s : Snapshot α) : Observer α → List Journal.Line
  | progress interval _ => if s.step % interval = 0 then [line (progressText s)] else []
  | _ => []

/-- The lines that an observer of progress writes after the last step; others write none. -/
def linesAfter (a : Assignment α) : Observer α → List Journal.Line
  | progress _ adjustments => [line (summaryText a adjustments)]
  | _ => []

@[simp] theorem linesAt_shown (o : Observer α) (snapshots : List (Snapshot α)) (s : Snapshot α) :
    linesAt s (o.shown snapshots) = linesAt s o := by
  cases o <;> rfl

end Lines

/-- Whether an observer only keeps what it is shown, or writes lines about it. -/
def IsChronicler : Observer α → Prop
  | idle | recorder _ | progress .. => True
  | _ => False

@[simp] theorem keep_shown (o : Observer α) (snapshots : List (Snapshot α)) (s : Snapshot α) :
    (o.shown snapshots).keep s = o.shown (snapshots ++ [s]) := by
  cases o with
  | progress interval _ =>
    by_cases h : s.phase = some .adjustPotentials <;> simp [keep, shown, h]
  | _ => simp [keep, shown]

@[simp] theorem shown_shown (o : Observer α) (xs ys : List (Snapshot α)) :
    (o.shown xs).shown ys = o.shown ys := by
  cases o <;> rfl

theorem map_keep_shown (observers : List (Observer α)) (snapshots : List (Snapshot α))
    (s : Snapshot α) :
    (observers.map (shown snapshots)).map (keep s) = observers.map (shown (snapshots ++ [s])) := by
  simp [Function.comp_def]

theorem map_shown_shown (observers : List (Observer α)) (xs ys : List (Snapshot α)) :
    (observers.map (shown xs)).map (shown ys) = observers.map (shown ys) := by
  simp [Function.comp_def]

theorem IsQuiet.isChronicler {o : Observer α} (h : o.IsQuiet) : o.IsChronicler := by
  cases o with
  | idle | recorder _ => trivial
  | _ => exact h.elim

theorem IsQuiet.seeing_fresh {o : Observer α} (h : o.IsQuiet) (snapshots : List (Snapshot α)) :
    o.fresh.seeing snapshots = o.shown snapshots := by
  cases o with
  | idle | recorder _ => rfl
  | _ => exact h.elim

namespace IsChronicler

variable {o : Observer α} (h : o.IsChronicler)
include h

theorem shown (snapshots : List (Snapshot α)) : (o.shown snapshots).IsChronicler := by
  cases o with
  | idle | recorder _ | progress _ _ => trivial
  | _ => exact h.elim

variable [Zero α]

theorem before_eq (w : Work α) (root : Node) : o.before w root = .ok (o.shown [], root) := by
  cases o with
  | idle | recorder _ | progress _ _ => rfl
  | _ => exact h.elim

variable [Legible α]

theorem see_eq (w : Work α) (s : Snapshot α) (root : Node) :
    o.see w s root = .ok (s, root, linesAt s o) := by
  cases o with
  | idle | recorder _ | progress _ _ => rfl
  | _ => exact h.elim

theorem after_eq (w : Work α) (a : Assignment α) : o.after w a = .ok (linesAfter a o) := by
  cases o with
  | idle | recorder _ | progress _ _ => rfl
  | _ => exact h.elim

end IsChronicler

theorem isChronicler_map_shown {observers : List (Observer α)}
    (h : ∀ o ∈ observers, o.IsChronicler) (snapshots : List (Snapshot α)) :
    ∀ o ∈ observers.map (shown snapshots), o.IsChronicler := by
  intro o ho
  obtain ⟨o, hmem, rfl⟩ := List.mem_map.mp ho
  exact (h o hmem).shown snapshots

end Observer

namespace Session

open Observer

section Calls

variable [Zero α] {w : Work α} {root : Node} {observers : List (Observer α)}
variable (hc : ∀ o ∈ observers, o.IsChronicler)
include hc

theorem beginAll_eq : beginAll w root observers = ⟨observers.map (shown []), root, [], none⟩ := by
  induction observers with
  | nil => rfl
  | cons o rest ih =>
    obtain ⟨ho, hrest⟩ := List.forall_mem_cons.mp hc
    rw [beginAll, ho.before_eq]
    simp only [ih hrest, List.map_cons]

variable [Legible α]

theorem showAll_eq (s : Snapshot α) :
    showAll w s root observers =
      (⟨observers.map (keep s), root, observers.flatMap (linesAt s), none⟩, s) := by
  induction observers with
  | nil => rfl
  | cons o rest ih =>
    obtain ⟨ho, hrest⟩ := List.forall_mem_cons.mp hc
    rw [showAll, ho.see_eq]
    simp only [ih hrest, List.map_cons, List.flatMap_cons]

theorem walk_eq (chosen : List (Nat × Nat)) (root : Node) (snapshots : List (Snapshot α))
    (entries : List (Work α)) :
    walk chosen root (observers.map (shown snapshots)) entries =
      (⟨observers.map (shown (snapshots ++ entries.map Work.snapshot)), root,
        entries.flatMap fun w => observers.flatMap (linesAt w.snapshot) ++ remarks chosen w, none⟩,
        none) := by
  induction entries generalizing snapshots with
  | nil => rw [List.map_nil, List.append_nil, List.flatMap_nil]; rfl
  | cons w rest ih =>
    have hseen := isChronicler_map_shown hc snapshots
    have hshow : showAll w w.snapshot root _ = _ := showAll_eq hseen w.snapshot
    rw [List.flatMap_map] at hshow
    simp only [linesAt_shown] at hshow
    simp only [walk, hshow, map_keep_shown, ih, List.map_cons, List.flatMap_cons,
      List.append_assoc, List.cons_append, List.nil_append]

theorem endAll_eq (a : Assignment α) :
    endAll w a observers = (observers.flatMap (linesAfter a), none) := by
  induction observers with
  | nil => rfl
  | cons o rest ih =>
    obtain ⟨ho, hrest⟩ := List.forall_mem_cons.mp hc
    rw [endAll, ho.after_eq]
    simp only [ih hrest, List.flatMap_cons]

end Calls

theorem abort_outcome [Zero α] (w : Work α) (failure : Failure α) :
    (abort w failure).outcome = .error (situate w failure) := by
  cases failure <;> rfl

end Session

/-- What becomes of a run that no observer breaks off. -/
def Run.outcome [Zero α] (run : Run α) : Except (Failure α) (Assignment α) :=
  match run.result with
  | .ok a => .ok a
  | .error fault => .error (Session.situate run.work (Session.failureOfFault fault))

theorem Run.outcome_eq_ok_iff [Zero α] {run : Run α} {a : Assignment α} :
    run.outcome = .ok a ↔ run.result = .ok a := by
  rw [outcome]
  cases run.result with
  | ok _ => simp
  | error _ => simp

namespace Session

open Observer

variable [Scalar α] [Legible α] {s : Session α} {table : Table α} {g : Grid α} {a : Assignment α}

/-- A session whose observers keep or write down what they see, after a table was solved: nothing
breaks the run off, so it is concluded after its last step. -/
theorem solve_eq_conclude {run : Run α} (hc : ∀ o ∈ s.observers, o.IsChronicler)
    (ht : table.accept s.finite = .ok g)
    (hrun : Run.solve (.ofValue g.length s.ceiling) g = run) :
    s.solve table =
      ({ s with observers := s.observers.map (shown run.snapshots), work := some run.work },
        { conclude (s.observers.map (shown run.snapshots)) run with
          lines := (run.entries.flatMap fun w =>
            s.observers.flatMap (linesAt w.snapshot) ++ remarks run.chosen w) ++
              (conclude (s.observers.map (shown run.snapshots)) run).lines }) := by
  have hwalk := walk_eq hc run.chosen s.root [] run.entries
  rw [List.nil_append] at hwalk
  simp only [solve, ht, solveGrid, beginAll_eq hc, hrun, hwalk]
  rfl

theorem solve_of_chroniclers {run : Run α} (hc : ∀ o ∈ s.observers, o.IsChronicler)
    (ht : table.accept s.finite = .ok g)
    (hrun : Run.solve (.ofValue g.length s.ceiling) g = run) :
    (s.solve table).1 = { s with
        observers := s.observers.map (shown run.snapshots), work := some run.work } ∧
      (s.solve table).2.outcome = run.outcome := by
  rw [solve_eq_conclude hc ht hrun]
  refine ⟨rfl, ?_⟩
  rw [conclude]
  cases hresult : run.result with
  | error fault => simp only [abort_outcome, Run.outcome, hresult]
  | ok a => simp only [endAll_eq (isChronicler_map_shown hc run.snapshots), Run.outcome, hresult]

/-- What observers have seen after a table was solved, and the outcome. -/
theorem solve_spec {run : Run α} (hq : ∀ o ∈ s.observers, o.IsQuiet)
    (ht : table.accept s.finite = .ok g)
    (hrun : Run.solve (.ofValue g.length s.ceiling) g = run) :
    (s.solve table).1.observers = s.observers.map (fun o => o.fresh.seeing run.snapshots) ∧
      (s.solve table).2.outcome = run.outcome := by
  obtain ⟨hsession, houtcome⟩ :=
    solve_of_chroniclers (fun o ho => (hq o ho).isChronicler) ht hrun
  refine ⟨?_, houtcome⟩
  rw [hsession]
  exact List.map_congr_left fun o ho => ((hq o ho).seeing_fresh run.snapshots).symm

theorem solve_eq (hq : ∀ o ∈ s.observers, o.IsQuiet) (ht : table.accept s.finite = .ok g)
    (hr : (Run.solve (.ofValue g.length s.ceiling) g).result = .ok a) :
    (s.solve table).1.observers = s.observers.map (fun o =>
      o.fresh.seeing (Run.solve (.ofValue g.length s.ceiling) g).snapshots) ∧
    (s.solve table).2.outcome = .ok a := by
  obtain ⟨hobservers, houtcome⟩ := solve_spec hq ht rfl
  exact ⟨hobservers, by rw [houtcome, Run.outcome, hr]⟩

omit [Legible α] in
theorem solve_of_null (hc : s.ceiling = .null) (g : Grid α) :
    Run.solve (.ofValue g.length s.ceiling) g = Run.solveStandard g := by
  rw [hc]
  rfl

/-- A session with one recorder, after a table was solved under the standard ceiling. -/
theorem solve_recorded {run : Run α} {seen : List (Snapshot α)}
    (ho : s.observers = [.recorder seen]) (hc : s.ceiling = .null)
    (ht : table.accept s.finite = .ok g) (hrun : Run.solveStandard g = run) :
    (s.solve table).1.observers = [.recorder run.snapshots] ∧
      (s.solve table).2.outcome = run.outcome := by
  have hchroniclers : ∀ o ∈ s.observers, o.IsChronicler := by simp [ho, IsChronicler]
  obtain ⟨hsession, houtcome⟩ :=
    solve_of_chroniclers hchroniclers ht ((solve_of_null hc g).trans hrun)
  refine ⟨?_, houtcome⟩
  rw [hsession, ho]
  rfl

end Session

end OptimalAssignment
