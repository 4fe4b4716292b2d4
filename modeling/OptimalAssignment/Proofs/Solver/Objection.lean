import OptimalAssignment.Proofs.Solver.Session

/-!
Runs that an observer breaks off. Observers that only read, be it that they write lines or drawings
besides, leave every snapshot as it is; so an objection at one step changes nothing for the steps
before it, and at that step the observers in front have seen one snapshot more than those behind.
-/
namespace OptimalAssignment

variable {α : Type}

namespace Observer

/-- Whether an observer neither objects nor touches what it is shown. -/
def IsReader : Observer α → Prop
  | eraser _ | objector _ => False
  | _ => True

theorem IsReader.shown {o : Observer α} (h : o.IsReader) (snapshots : List (Snapshot α)) :
    (o.shown snapshots).IsReader := by
  cases o with
  | eraser _ | objector _ => exact h.elim
  | _ => trivial

theorem isReader_map_shown {observers : List (Observer α)} (h : ∀ o ∈ observers, o.IsReader)
    (snapshots : List (Snapshot α)) : ∀ o ∈ observers.map (shown snapshots), o.IsReader := by
  intro o ho
  obtain ⟨o, hmem, rfl⟩ := List.mem_map.mp ho
  exact (h o hmem).shown snapshots

variable [Zero α] {o o' : Observer α} {w : Work α} {root root' : Node}

theorem IsReader.before_eq (h : o.IsReader) (hb : o.before w root = .ok (o', root')) :
    o' = o.shown [] := by
  cases o with
  | eraser _ | objector _ => exact h.elim
  | drawings folder cell kept =>
    rw [before] at hb
    split at hb
    · exact (Prod.mk.inj (Except.ok.inj hb)).1.symm
    · contradiction
  | _ => exact (Prod.mk.inj (Except.ok.inj hb)).1.symm

theorem IsReader.see_eq [Legible α] {s s' : Snapshot α} {lines : List Journal.Line}
    (h : o.IsReader) (hs : o.see w s root = .ok (s', root', lines)) : s' = s := by
  cases o with
  | eraser _ | objector _ => exact h.elim
  | drawings folder cell kept =>
    rw [see] at hs
    cases hdraw : draw root folder cell s with
    | error failure => simp [hdraw, Except.map] at hs
    | ok drawn =>
      rw [hdraw] at hs
      exact (Prod.mk.inj (Except.ok.inj hs)).1.symm
  | _ => exact (Prod.mk.inj (Except.ok.inj hs)).1.symm

end Observer

namespace Session

open Observer

variable [Zero α] {w e : Work α} {root : Node} {before after observers : List (Observer α)}
variable {objection : Objection}

/-! ### Before the run -/

theorem beginAll_append (xs ys : List (Observer α)) :
    beginAll w root (xs ++ ys) =
      match (beginAll w root xs).failure with
      | some _ => { beginAll w root xs with observers := (beginAll w root xs).observers ++ ys }
      | none =>
        { beginAll w (beginAll w root xs).root ys with
          observers := (beginAll w root xs).observers ++
            (beginAll w (beginAll w root xs).root ys).observers } := by
  induction xs generalizing root with
  | nil => rfl
  | cons o xs ih =>
    rw [List.cons_append, beginAll, beginAll]
    cases hb : o.before w root with
    | error failure => rfl
    | ok begun =>
      simp only [ih]
      cases (beginAll w begun.2 xs).failure <;> rfl

theorem beginAll_observers (hr : ∀ o ∈ observers, o.IsReader)
    (hf : (beginAll w root observers).failure = none) :
    (beginAll w root observers).observers = observers.map (shown []) := by
  induction observers generalizing root with
  | nil => rfl
  | cons o rest ih =>
    rw [beginAll] at hf ⊢
    cases hb : o.before w root with
    | error failure => simp [hb] at hf
    | ok begun =>
      simp only [hb] at hf
      simp only [ih (fun o ho => hr o (List.mem_cons_of_mem _ ho)) hf, List.map_cons,
        (hr o List.mem_cons_self).before_eq hb]

/-- An objector that speaks up later begins like any other. -/
theorem beginAll_insert (hb : ∀ o ∈ before, o.IsReader) (ha : ∀ o ∈ after, o.IsReader)
    (hocc : objection.occasion ≠ .before)
    (hf : (beginAll w root (before ++ after)).failure = none) :
    beginAll w root (before ++ objector objection :: after) =
      { beginAll w root (before ++ after) with
        observers := before.map (shown []) ++ objector objection :: after.map (shown []) } := by
  rw [beginAll_append] at hf ⊢
  rw [beginAll_append]
  cases hfirst : (beginAll w root before).failure with
  | some failure =>
    rw [hfirst] at hf
    simp [hfirst] at hf
  | none =>
    simp only [hfirst] at hf
    simp only [beginAll, Observer.before, if_neg hocc, beginAll_observers hb hfirst,
      beginAll_observers ha hf]

/-! ### One step -/

variable [Legible α] {s : Snapshot α}

theorem showAll_snd (hr : ∀ o ∈ observers, o.IsReader) : (showAll w s root observers).2 = s := by
  induction observers generalizing root with
  | nil => rfl
  | cons o rest ih =>
    rw [showAll]
    cases hs : o.see w s root with
    | error failure => rfl
    | ok seen =>
      obtain rfl := (hr o List.mem_cons_self).see_eq hs
      exact ih fun o ho => hr o (List.mem_cons_of_mem _ ho)

theorem showAll_append {xs : List (Observer α)} (hr : ∀ o ∈ xs, o.IsReader)
    (ys : List (Observer α)) :
    showAll w s root (xs ++ ys) =
      match (showAll w s root xs).1 with
      | ⟨seen, root', lines, some failure⟩ => (⟨seen ++ ys, root', lines, some failure⟩, s)
      | ⟨_, root', lines, none⟩ =>
        ({ (showAll w s root' ys).1 with
            observers := xs.map (keep (showAll w s root' ys).2) ++ (showAll w s root' ys).1.observers
            lines := lines ++ (showAll w s root' ys).1.lines }, (showAll w s root' ys).2) := by
  induction xs generalizing root with
  | nil => rfl
  | cons o xs ih =>
    have hr' : ∀ o ∈ xs, o.IsReader := fun o ho => hr o (List.mem_cons_of_mem _ ho)
    rw [List.cons_append, showAll, showAll]
    cases hs : o.see w s root with
    | error failure => rfl
    | ok seen =>
      obtain ⟨s', root', lines⟩ := seen
      obtain rfl := (hr o List.mem_cons_self).see_eq hs
      have hsnd : (showAll w s' root' xs).2 = s' := showAll_snd hr'
      simp only [ih hr', hsnd]
      rcases (showAll w s' root' xs).1 with ⟨seen, root₁, lines₁, _ | failure⟩
      · simp [List.append_assoc]
      · simp

theorem showAll_observers (hr : ∀ o ∈ observers, o.IsReader)
    (hf : (showAll w s root observers).1.failure = none) :
    (showAll w s root observers).1.observers = observers.map (keep s) := by
  induction observers generalizing root with
  | nil => rfl
  | cons o rest ih =>
    have hr' : ∀ o ∈ rest, o.IsReader := fun o ho => hr o (List.mem_cons_of_mem _ ho)
    rw [showAll] at hf ⊢
    cases hs : o.see w s root with
    | error failure => simp [hs] at hf
    | ok seen =>
      obtain rfl := (hr o List.mem_cons_self).see_eq hs
      simp only [hs] at hf
      simp only [ih hr' hf, showAll_snd hr', List.map_cons]

section Insert

variable (hb : ∀ o ∈ before, o.IsReader) (ha : ∀ o ∈ after, o.IsReader)
  (hf : (showAll w s root (before ++ after)).1.failure = none)
include hb ha hf

/-- An objector that speaks up at another step. -/
theorem showAll_insert (hocc : objection.occasion ≠ .atStep s.step) :
    (showAll w s root (before ++ objector objection :: after)).1 =
      { (showAll w s root (before ++ after)).1 with
        observers := before.map (keep s) ++ objector objection :: after.map (keep s) } := by
  rw [showAll_append hb] at hf ⊢
  rw [showAll_append hb]
  rcases hfirst : (showAll w s root before).1 with ⟨seen, root', lines, _ | failure⟩
  · simp only [hfirst] at hf
    simp only [showAll, see, if_neg hocc, showAll_observers ha hf, showAll_snd ha,
      List.nil_append, keep]
  · simp [hfirst] at hf

omit ha in
/-- An objector that speaks up at this step. -/
theorem showAll_object (hocc : objection.occasion = .atStep s.step) :
    ∃ root' lines, (showAll w s root (before ++ objector objection :: after)).1 =
      ⟨before.map (keep s) ++ objector objection :: after, root', lines,
        some (failureOf w objection)⟩ := by
  rw [showAll_append hb] at hf ⊢
  rcases hfirst : (showAll w s root before).1 with ⟨seen, root', lines, _ | failure⟩
  · refine ⟨root', lines ++ [], ?_⟩
    simp only [showAll, see, if_pos hocc]
  · simp [hfirst] at hf

end Insert

/-! ### The steps of a run -/

variable {chosen : List (Nat × Nat)} {rest entries : List (Work α)}

theorem failure_of_walk_cons
    (hf : (walk chosen root observers (w :: rest)).1.failure = none) :
    (showAll w w.snapshot root observers).1.failure = none ∧
      (walk chosen (showAll w w.snapshot root observers).1.root
        (showAll w w.snapshot root observers).1.observers rest).1.failure = none := by
  rw [walk] at hf
  cases hfirst : (showAll w w.snapshot root observers).1.failure with
  | some failure => simp [hfirst] at hf
  | none =>
    simp only [hfirst] at hf
    exact ⟨rfl, hf⟩

theorem exists_stop_of_walk {failure : Failure α}
    (hf : (walk chosen root observers entries).1.failure = some failure) :
    ∃ w, (walk chosen root observers entries).2 = some w := by
  induction entries generalizing root observers with
  | nil => simp [walk] at hf
  | cons w rest ih =>
    rw [walk] at hf ⊢
    cases hfirst : (showAll w w.snapshot root observers).1.failure with
    | some failure => simp
    | none =>
      simp only [hfirst] at hf ⊢
      exact ih hf

/-- Readers around an objector, from some step of a run on. Those in front of it have been shown the
step at which it speaks up, and those behind have not. -/
theorem walk_object (hb : ∀ o ∈ before, o.IsReader) (ha : ∀ o ∈ after, o.IsReader)
    (snapshots : List (Snapshot α)) {later : List (Work α)}
    (hf : (walk chosen root ((before ++ after).map (shown snapshots))
      (entries ++ e :: later)).1.failure = none)
    (hother : ∀ w ∈ entries, objection.occasion ≠ .atStep w.step)
    (hocc : objection.occasion = .atStep e.step) :
    ∃ root' lines, walk chosen root
        (before.map (shown snapshots) ++ objector objection :: after.map (shown snapshots))
        (entries ++ e :: later) =
      (⟨before.map (shown (snapshots ++ (entries ++ [e]).map Work.snapshot)) ++
          objector objection :: after.map (shown (snapshots ++ entries.map Work.snapshot)),
        root', lines, some (failureOf e objection)⟩, some e) := by
  have hall : ∀ o ∈ before ++ after, o.IsReader := fun o ho =>
    (List.mem_append.mp ho).elim (hb o) (ha o)
  induction entries generalizing root snapshots with
  | nil =>
    rw [List.map_append] at hf
    obtain ⟨hstep, -⟩ := failure_of_walk_cons hf
    obtain ⟨root', lines, hshow⟩ := showAll_object (isReader_map_shown hb snapshots) hstep hocc
    refine ⟨root', lines, ?_⟩
    rw [List.nil_append, walk, hshow, map_keep_shown]
    simp
  | cons w entries ih =>
    rw [List.map_append] at hf
    obtain ⟨hstep, hlater⟩ := failure_of_walk_cons hf
    have hshow := showAll_insert (isReader_map_shown hb snapshots)
      (isReader_map_shown ha snapshots) hstep (hother w List.mem_cons_self)
    rw [← List.map_append] at hstep hlater
    rw [showAll_observers (isReader_map_shown hall snapshots) hstep, map_keep_shown] at hlater
    obtain ⟨root', lines, hwalk⟩ := ih _ hlater fun w hw => hother w (List.mem_cons_of_mem _ hw)
    rw [List.map_append] at hstep hwalk
    refine ⟨root', (showAll w w.snapshot root (before.map (shown snapshots) ++
      after.map (shown snapshots))).1.lines ++ remarks chosen w ++ lines, ?_⟩
    rw [List.cons_append, walk, hshow]
    simp only [hstep, map_keep_shown, hwalk, List.append_assoc, List.cons_append,
      List.nil_append, List.map_cons]

end Session

/-! ### Sessions -/

namespace Session

open Observer

variable [Scalar α] [Legible α] {s : Session α} {table : Table α} {g : Grid α} {a : Assignment α}

/-- A session that returned an assignment was not broken off by any observer. -/
theorem failure_of_outcome (ht : table.accept s.finite = .ok g)
    (ho : (s.solve table).2.outcome = .ok a) :
    (beginAll (Work.start g) s.root s.observers).failure = none ∧
      (walk (Run.solve (.ofValue g.length s.ceiling) g).chosen
        (beginAll (Work.start g) s.root s.observers).root
        (beginAll (Work.start g) s.root s.observers).observers
        (Run.solve (.ofValue g.length s.ceiling) g).entries).1.failure = none := by
  simp only [solve, ht, solveGrid] at ho
  cases hbegan : (beginAll (Work.start g) s.root s.observers).failure with
  | some failure => simp [hbegan] at ho
  | none =>
    refine ⟨rfl, ?_⟩
    simp only [hbegan] at ho
    rw [Option.eq_none_iff_forall_ne_some]
    intro failure hfailure
    obtain ⟨w, hstop⟩ := exists_stop_of_walk hfailure
    simp [hfailure, hstop, abort_outcome] at ho

/-- An objection at one step of a session whose other observers are readers and do not fail. -/
theorem solve_object {before after : List (Observer α)} {objection : Objection}
    {entries later : List (Work α)} {e : Work α}
    (ht : table.accept s.finite = .ok g) (hs : s.observers = before ++ objector objection :: after)
    (hb : ∀ o ∈ before, o.IsReader) (ha : ∀ o ∈ after, o.IsReader)
    (hcalm : ({ s with observers := before ++ after }.solve table).2.outcome = .ok a)
    (hentries : (Run.solve (.ofValue g.length s.ceiling) g).entries = entries ++ e :: later)
    (hother : ∀ w ∈ entries, objection.occasion ≠ .atStep w.step)
    (hocc : objection.occasion = .atStep e.step) :
    (s.solve table).1.observers =
        before.map (shown ((entries ++ [e]).map Work.snapshot)) ++
          objector objection :: after.map (shown (entries.map Work.snapshot)) ∧
      (s.solve table).1.work = some e ∧
      (s.solve table).2.outcome = .error (situate e (failureOf e objection)) := by
  obtain ⟨hbegan, hwalked⟩ :=
    failure_of_outcome (s := { s with observers := before ++ after }) ht hcalm
  have hall : ∀ o ∈ before ++ after, o.IsReader := fun o ho =>
    (List.mem_append.mp ho).elim (hb o) (ha o)
  have hnever : objection.occasion ≠ .before := by
    rw [hocc]
    exact Occasion.noConfusion
  have hbegin := beginAll_insert hb ha hnever hbegan
  rw [beginAll_observers hall hbegan, hentries] at hwalked
  obtain ⟨root', lines, hwalk⟩ := walk_object hb ha [] hwalked hother hocc
  rw [← hentries, List.nil_append, List.nil_append] at hwalk
  have hbegan' : (beginAll (Work.start g) s.root (before ++ after)).failure = none := hbegan
  simp only [solve, ht, solveGrid, hs, hbegin, hbegan', hwalk, abort_outcome, Option.getD_some,
    and_self]

end Session

end OptimalAssignment
