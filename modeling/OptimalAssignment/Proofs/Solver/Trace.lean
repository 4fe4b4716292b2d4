import Mathlib
import OptimalAssignment.Proofs.Cost.Exact
import OptimalAssignment.Proofs.Solver.Completion

/-!
The order of the steps of a run. The phases form a word of a regular language: a pass always finds a
zero, so it never adjusts before it has searched. From one step to the next no matched line is lost;
a flip adds one selected zero and forgets the prepared ones, a search prepares a row that was not
prepared yet, and nothing else changes either kind.
-/
namespace OptimalAssignment

open Matching CostMatrix

/-! ### The language of the phases -/

namespace Phase

open RegularExpression (char)

/-- The phases of a pass that moves a cover. -/
def moving : RegularExpression Phase :=
  char search * char rowHasSelection * char adjustPotentials

/-- The phases of a pass that flips a path. -/
def flipping : RegularExpression Phase :=
  char search * char buildPath * char augment

/-- The phases of the passes of a search that ends with a flip, if it has any pass. -/
def passes : RegularExpression Phase :=
  (moving.star * flipping).star

/-- The phases of a run. -/
def course : RegularExpression Phase :=
  char reduce * char select * passes * char done

variable {word : List Phase}

theorem mem_course (h : word ∈ passes.matches') :
    reduce :: select :: word ++ [done] ∈ course.matches' := by
  have hstart : [reduce, select] ∈ (char reduce * char select).matches' :=
    Language.append_mem_mul (a := [reduce]) (b := [select]) rfl rfl
  exact Language.append_mem_mul (Language.append_mem_mul hstart h) rfl

theorem moving_append (h : word ∈ (moving.star * flipping * passes).matches') :
    [search, rowHasSelection, adjustPotentials] ++ word ∈
      (moving.star * flipping * passes).matches' := by
  have hpass : [search, rowHasSelection, adjustPotentials] ∈ moving.matches' :=
    Language.append_mem_mul (a := [search, rowHasSelection]) (b := [adjustPotentials])
      (Language.append_mem_mul (a := [search]) (b := [rowHasSelection]) rfl rfl) rfl
  have hle : moving.matches' * (moving.star * flipping * passes).matches' ≤
      (moving.star * flipping * passes).matches' := by
    simp only [RegularExpression.matches'_mul, RegularExpression.matches'_star, ← mul_assoc]
    gcongr
    exact mul_kstar_le_kstar
  exact hle (Language.append_mem_mul hpass h)

theorem flipping_append (h : word ∈ passes.matches') :
    [search, buildPath, augment] ++ word ∈ (moving.star * flipping * passes).matches' := by
  have hpass : [search, buildPath, augment] ∈ flipping.matches' :=
    Language.append_mem_mul (a := [search, buildPath]) (b := [augment])
      (Language.append_mem_mul (a := [search]) (b := [buildPath]) rfl rfl) rfl
  exact Language.append_mem_mul
    (Language.append_mem_mul (Language.nil_mem_kstar moving.matches') hpass) h

/-- Passes with a flip at the end are passes. -/
theorem mem_passes (h : word ∈ (moving.star * flipping * passes).matches') :
    word ∈ passes.matches' :=
  mul_kstar_le_kstar (a := (moving.star * flipping).matches') h

end Phase

/-! ### From one snapshot to the next -/

namespace Snapshot

variable {α : Type} [Scalar α]

/-- The cell that a search has just found; none in other phases. -/
def found? (s : Snapshot α) : Option (Nat × Nat) :=
  if s.phase = some .search then
    match (CostMatrix.ofGrid s.values).findUncoveredZero ⟨s.size, s.rows, s.cols⟩ with
    | .ok cell => cell
    | .error _ => none
  else none

theorem found?_eq {s : Snapshot α} {n : Nat} (hphase : s.phase = some .search)
    (hsquare : s.values.IsSquare n) (hrows : s.rows.length = n) (hcols : s.cols.length = n) :
    s.found? = uncoveredZero? ⟨s.size, s.rows, s.cols⟩ s.values := by
  have hfits : Coverage.Fits n ⟨s.size, s.rows, s.cols⟩ := ⟨hsquare.1, hrows, hcols⟩
  rw [found?, if_pos hphase, findUncoveredZero_eq (m := CostMatrix.ofGrid s.values) hsquare hfits]
  rfl

/-- How a snapshot of a run differs from the one before it. -/
structure Follows (s s' : Snapshot α) : Prop where
  step_eq : s'.step = s.step + 1
  rows_kept : s.selected.map Prod.fst ⊆ s'.selected.map Prod.fst
  cols_kept : s.selected.map Prod.snd ⊆ s'.selected.map Prod.snd
  numSelected_eq : s.phase ≠ some .reduce →
    s'.numSelected = s.numSelected + if s'.phase = some .augment then 1 else 0
  searched : s'.phase = some .search → ∃ row col, s'.found? = some (row, col) ∧
    row ∉ s.prepared.map Prod.fst ∧ s'.prepared.Perm ((row, col) :: s.prepared)
  prepared_eq : s'.phase ≠ some .search → s'.phase ≠ some .augment → s'.prepared = s.prepared

variable {s s' : Snapshot α} {snapshots : List (Snapshot α)}

/-- A step that touches neither kind of zeros. -/
theorem Follows.of_eq {phase : Phase} (hstep : s'.step = s.step + 1)
    (hphase : s'.phase = some phase) (hselected : s'.selected = s.selected)
    (hprepared : s'.prepared = s.prepared) (hsearch : phase ≠ .search)
    (haugment : phase ≠ .augment) : Follows s s' where
  step_eq := hstep
  rows_kept := by rw [hselected]; exact List.Subset.refl _
  cols_kept := by rw [hselected]; exact List.Subset.refl _
  numSelected_eq _ := by
    rw [hphase, if_neg fun he => haugment (Option.some.inj he), numSelected, hselected]
    rfl
  searched h := absurd (Option.some.inj (hphase.symm.trans h)) hsearch
  prepared_eq _ _ := hprepared

theorem map_step_eq (h : (s :: snapshots).IsChain Follows) :
    (s :: snapshots).map step = List.range' s.step (snapshots.length + 1) := by
  induction snapshots generalizing s with
  | nil => rfl
  | cons s' rest ih =>
    obtain ⟨hfollows, hrest⟩ := List.isChain_cons_cons.mp h
    rw [List.map_cons, ih hrest, hfollows.step_eq]
    rfl

/-- The matched lines of a snapshot are matched in all later ones. -/
theorem pairwise_matched (h : snapshots.IsChain Follows) :
    snapshots.Pairwise fun s s' => s.selected.map Prod.fst ⊆ s'.selected.map Prod.fst ∧
      s.selected.map Prod.snd ⊆ s'.selected.map Prod.snd := by
  have : IsTrans (Snapshot α) fun s s' => s.selected.map Prod.fst ⊆ s'.selected.map Prod.fst ∧
      s.selected.map Prod.snd ⊆ s'.selected.map Prod.snd :=
    ⟨fun _ _ _ h₁ h₂ => ⟨List.Subset.trans h₁.1 h₂.1, List.Subset.trans h₁.2 h₂.2⟩⟩
  exact List.isChain_iff_pairwise.mp (h.imp fun _ _ hf => ⟨hf.rows_kept, hf.cols_kept⟩)

/-- The rows that searches prepare in a stretch of a run. -/
def rowsPrepared (stretch : List (Snapshot α)) : List Nat :=
  stretch.filterMap fun s => s.found?.map Prod.fst

/-- A step other than a flip prepares one new row or none. -/
theorem Follows.rowsPrepared_cons (h : Follows s s') (haugment : s'.phase ≠ some .augment)
    (later : List (Snapshot α)) :
    rowsPrepared (s' :: later) = rowsPrepared later ∧ s'.prepared = s.prepared ∨
      ∃ row, rowsPrepared (s' :: later) = row :: rowsPrepared later ∧
        row ∉ s.prepared.map Prod.fst ∧
        (s'.prepared.map Prod.fst).Perm (row :: s.prepared.map Prod.fst) := by
  by_cases hsearch : s'.phase = some .search
  · obtain ⟨row, col, hfound, hnew, hperm⟩ := h.searched hsearch
    exact .inr ⟨row, by simp [rowsPrepared, hfound], hnew, hperm.map Prod.fst⟩
  · have hfound : s'.found? = none := if_neg hsearch
    exact .inl ⟨by simp [rowsPrepared, hfound], h.prepared_eq hsearch haugment⟩

/-- Between two flips every search prepares another row. Before the first flip it is none of the
rows prepared in the snapshot that the list follows. -/
theorem nodup_rowsPrepared (h : (s :: snapshots).IsChain Follows) :
    ∃ first rest, snapshots.splitOnP (·.phase = some .augment) = first :: rest ∧
      (rowsPrepared first).Nodup ∧ (∀ row ∈ rowsPrepared first, row ∉ s.prepared.map Prod.fst) ∧
      ∀ stretch ∈ rest, (rowsPrepared stretch).Nodup := by
  induction snapshots generalizing s with
  | nil => exact ⟨[], [], List.splitOnP_nil, List.nodup_nil, by simp [rowsPrepared], by simp⟩
  | cons s' later ih =>
    obtain ⟨hfollows, hlater⟩ := List.isChain_cons_cons.mp h
    obtain ⟨first, rest, hsplit, hnodup, hnew, hrest⟩ := ih hlater
    rw [List.splitOnP_cons_eq_if_modifyHead, hsplit]
    by_cases haugment : s'.phase = some .augment
    · refine ⟨[], first :: rest, by simp [haugment], List.nodup_nil, by simp [rowsPrepared], ?_⟩
      exact List.forall_mem_cons.mpr ⟨hnodup, hrest⟩
    refine ⟨s' :: first, rest, by simp [haugment], ?_⟩
    rcases hfollows.rowsPrepared_cons haugment first with ⟨heq, hsame⟩ | ⟨row, heq, hfresh, hperm⟩
    · rw [heq, ← hsame]
      exact ⟨hnodup, hnew, hrest⟩
    · have hrow : row ∉ rowsPrepared first := fun hmem =>
        hnew row hmem (hperm.mem_iff.mpr List.mem_cons_self)
      rw [heq]
      refine ⟨List.nodup_cons.mpr ⟨hrow, hnodup⟩, List.forall_mem_cons.mpr ⟨hfresh, ?_⟩, hrest⟩
      intro other hmem hold
      exact hnew other hmem (hperm.mem_iff.mpr (List.mem_cons_of_mem _ hold))

/-- A list of snapshots that begins before any search or flip. -/
theorem nodup_stretches (h : (s :: snapshots).IsChain Follows) (hsearch : s.phase ≠ some .search)
    (haugment : s.phase ≠ some .augment) :
    ∀ stretch ∈ (s :: snapshots).splitOnP (·.phase = some .augment),
      (rowsPrepared stretch).Nodup := by
  obtain ⟨first, rest, hsplit, hnodup, -, hrest⟩ := nodup_rowsPrepared h
  have hfound : s.found? = none := if_neg hsearch
  have hfirst : rowsPrepared (s :: first) = rowsPrepared first := by simp [rowsPrepared, hfound]
  rw [List.splitOnP_cons_eq_if_modifyHead, if_neg (by simp [haugment]), hsplit,
    List.modifyHead_cons, List.forall_mem_cons, hfirst]
  exact ⟨hnodup, hrest⟩

theorem exists_found (h : (s :: snapshots).IsChain Follows) :
    ∀ shown ∈ snapshots, shown.phase = some .search →
      ∃ cell ∈ shown.prepared, shown.found? = some cell := by
  induction snapshots generalizing s with
  | nil => simp
  | cons s' rest ih =>
    obtain ⟨hfollows, hrest⟩ := List.isChain_cons_cons.mp h
    refine List.forall_mem_cons.mpr ⟨fun hsearch => ?_, ih hrest⟩
    obtain ⟨row, col, hfound, -, hperm⟩ := hfollows.searched hsearch
    exact ⟨(row, col), hperm.mem_iff.mpr List.mem_cons_self, hfound⟩

end Snapshot

namespace Work

variable {α : Type} [Scalar α] [LinearOrder α] [LawfulScalar α]
variable {n : Nat} {g : Grid α} {e w w' : Work α} {entries : List (Work α)} {passes flips : Nat}

/-! ### The loop of the search -/

/-- The data at which a pass of the search begins, when the search begins at given data. -/
inductive Begins (w : Work α) : Work α → Prop
  | first (incomplete : w.coverage.isOptimal = false) : Begins w w
  | later {w' : Work α} (before : Begins w w') (unbroken : w'.pass.fault = none)
      (incomplete : w'.pass.work.coverage.isOptimal = false) : Begins w w'.pass.work

theorem Begins.ready (hb : Begins w w') (h : w.IsReady n) :
    w'.IsReady n ∧ w'.coverage.isOptimal = false := by
  induction hb with
  | first incomplete => exact ⟨h, incomplete⟩
  | later _ _ incomplete ih =>
    obtain ⟨hready, ho⟩ := ih
    obtain ⟨entries, w₁, flips, hpass⟩ := hready.exists_pass ho
    rw [hready.pass_eq ho hpass] at incomplete ⊢
    exact ⟨hpass.ready hready ho, incomplete⟩

/-- No pass begins without an uncovered zero. -/
theorem Begins.exists_findUncoveredZero (hb : Begins w w') (h : w.IsReady n) :
    ∃ cell, w'.matrix.findUncoveredZero w'.coverage = .ok (some cell) := by
  obtain ⟨hready, ho⟩ := hb.ready h
  obtain ⟨row, col, hzero⟩ := hready.exists_uncoveredZero ho
  exact ⟨(row, col), by rw [findUncoveredZero_eq hready.square hready.fits, hzero]⟩

/-! ### The phases of a search -/

/-- A pass that moves a cover leaves a column without one. -/
theorem IsReady.isOptimal_covered (h : w.IsReady n) (ho : w.coverage.isOptimal = false)
    (hp : Pass w entries w' 0) : w'.coverage.isOptimal = false := by
  cases hp with
  | cover zero matched eq₁ eq₂ eq₃ =>
    have hready := (h.covered ho zero matched).2
    rw [eq₃, eq₂, eq₁]
    exact hready.isOptimal_eq_false (h.found ho zero).deficient

/-- The phases of a search that ends with every column covered: if it has any pass, the last one is
a flip. -/
theorem Passes.exists_word (hp : Passes w entries w' passes flips) (h : w.IsReady n)
    (optimal : w'.coverage.isOptimal = true) :
    ∃ word, entries.map phase = word.map some ∧ word ∈ Phase.passes.matches' ∧
      (w.coverage.isOptimal = false →
        word ∈ (Phase.moving.star * Phase.flipping * Phase.passes).matches') := by
  induction hp with
  | none => exact ⟨[], rfl, Language.nil_mem_kstar _, fun ho => by simp [optimal] at ho⟩
  | more ho first rest ih =>
    obtain ⟨word, hword, hpasses, hflipped⟩ := ih (first.ready h ho) optimal
    rcases first.phases with ⟨hphases, rfl⟩ | ⟨hphases, rfl⟩
    · have hmem := Phase.moving_append (hflipped (h.isOptimal_covered ho first))
      refine ⟨_, ?_, Phase.mem_passes hmem, fun _ => hmem⟩
      rw [List.map_append, hphases, hword]
      rfl
    · have hmem := Phase.flipping_append hpasses
      refine ⟨_, ?_, Phase.mem_passes hmem, fun _ => hmem⟩
      rw [List.map_append, hphases, hword]
      rfl

/-! ### The steps of a search -/

section Steps

variable {row col : Nat} (h : e.next.IsReady n) (ho : e.coverage.isOptimal = false)
  (zero : uncoveredZero? e.coverage e.matrix.values = some (row, col))
include h zero

/-- A search prepares a row that was not prepared. -/
theorem IsReady.follows_found : e.snapshot.Follows (e.next.found row col).snapshot := by
  obtain ⟨hcell, huncovered, -⟩ := uncoveredZero?_spec h.square h.fits zero
  have hnew : ¬ (e.matching.mark? row).isSome := fun hmark =>
    huncovered (h.marked_covered row hmark)
  have hfree : e.matching.mark? row = none := Option.not_isSome_iff_eq_none.mp hnew
  have hfound : (e.next.found row col).snapshot.found? = some (row, col) :=
    (Snapshot.found?_eq rfl h.square h.fits.length_rows h.fits.length_cols).trans zero
  exact
    { step_eq := rfl
      rows_kept := List.Subset.refl _
      cols_kept := List.Subset.refl _
      numSelected_eq := fun _ => rfl
      searched := fun _ => ⟨row, col, hfound, fun hmem => hnew (mem_preparedRows_iff.mp hmem),
        h.paired.preparedPairs_marked (h.square.lt_of_cell? hcell).1 hfree⟩
      prepared_eq := fun hsearch => absurd rfl hsearch }

include ho

/-- A flip keeps all matched lines and adds a selected zero. -/
theorem IsReady.follows_flipped {last : Nat} {prepared selected : List (Cell Nat)}
    {m : Matching Nat} (free : e.matching.col? row = none)
    (chain : Chain (e.matching.marked row col) col prepared selected last)
    (flip : AlternatingPath.flip ⟨(row, col) :: prepared, selected⟩ (e.matching.marked row col) =
      (m, none)) (path : AlternatingPath Nat) :
    ((e.next.found row col).next.pathed path).snapshot.Follows
      (((e.next.found row col).next.pathed path).next.flipped m).snapshot := by
  have hfound := h.found ho zero
  obtain ⟨hm, -, hcol⟩ := hfound.flip_spec free chain flip
  exact
    { step_eq := rfl
      rows_kept := fun r hr => mem_selectedRows_iff.mpr
        ((isSome_col?_flip hfound.paired chain hcol r).mpr (.inr (mem_selectedRows_iff.mp hr)))
      cols_kept := fun c hc => hm.mem_selectedCols_iff.mpr
        ((isSome_row?_flip hfound.paired hm chain hcol c).mpr
          (.inr (hfound.paired.mem_selectedCols_iff.mp hc)))
      numSelected_eq := fun _ => (length_selectedPairs m).trans
        ((numSelected_flip hfound.paired hm chain hcol free).trans
          (congrArg (· + 1) (length_selectedPairs _).symm))
      searched := fun hsearch => absurd (Option.some.inj hsearch) (by decide)
      prepared_eq := fun _ haugment => absurd rfl haugment }

end Steps

/-- The three steps of a pass, which begins after some step of the run. -/
theorem Pass.follows (h : w.IsReady n) (ho : w.coverage.isOptimal = false)
    (hp : Pass w entries w' flips) (he : w = e.next) :
    ∃ w₁ w₂ w₃, entries = [w₁, w₂, w₃] ∧ w' = w₃.next ∧ e.snapshot.Follows w₁.snapshot ∧
      w₁.snapshot.Follows w₂.snapshot ∧ w₂.snapshot.Follows w₃.snapshot := by
  subst he
  cases hp with
  | @cover row col sel w₁ w₂ w₃ zero matched eq₁ eq₂ eq₃ =>
    refine ⟨w₁, w₂, w₃, rfl, rfl, ?_, ?_, ?_⟩
    · rw [eq₁]
      exact h.follows_found zero
    · rw [eq₂]
      exact .of_eq rfl rfl rfl rfl (by decide) (by decide)
    · rw [eq₃]
      exact .of_eq rfl rfl rfl rfl (by decide) (by decide)
  | @augment row col last prepared selected m w₁ w₂ w₃ zero free eq₁ chain flip eq₂ eq₃ =>
    refine ⟨w₁, w₂, w₃, rfl, rfl, ?_, ?_, ?_⟩
    · rw [eq₁]
      exact h.follows_found zero
    · rw [eq₂]
      exact .of_eq rfl rfl rfl rfl (by decide) (by decide)
    · rw [eq₁] at chain flip
      rw [eq₃, eq₂, eq₁]
      exact h.follows_flipped ho zero free chain flip _

/-- The steps of a search that begins after some step of the run. -/
theorem Passes.isChain (hp : Passes w entries w' passes flips) (h : w.IsReady n) (he : w = e.next) :
    ((e :: entries).map snapshot).IsChain Snapshot.Follows ∧
      ∃ before last, e :: entries = before ++ [last] ∧ w' = last.next := by
  induction hp generalizing e with
  | none => exact ⟨List.isChain_singleton _, [], e, rfl, he⟩
  | more ho first _ ih =>
    obtain ⟨w₁, w₂, w₃, rfl, hnext, h₁, h₂, h₃⟩ := first.follows h ho he
    obtain ⟨hchain, before, last, hlast, hw'⟩ := ih (first.ready h ho) hnext
    refine ⟨?_, e :: w₁ :: w₂ :: before, last, ?_, hw'⟩
    · simp only [List.cons_append, List.nil_append, List.map_cons, List.isChain_cons_cons]
      exact ⟨h₁, h₂, h₃, hchain⟩
    · exact congrArg (e :: w₁ :: w₂ :: ·) hlast

end Work

/-! ### The steps of a run -/

section Run

variable {α : Type} [Scalar α] {n : Nat} {g : Grid α}

/-- What the snapshots of a run show about the order of its steps. -/
structure Snapshot.InOrder (snapshots : List (Snapshot α)) (passes flips : Nat) : Prop where
  word : ∃ word ∈ Phase.course.matches', snapshots.map Snapshot.phase = word.map some
  steps : snapshots.map Snapshot.step = List.range (3 * passes + 3)
  flips_eq : (snapshots.map Snapshot.phase).count (some .augment) = flips
  isChain : snapshots.IsChain Follows

variable [LinearOrder α] [LawfulScalar α] {w : Work α} {entries : List (Work α)}
variable {passes flips : Nat}

theorem Work.follows_reduced (hg : g.IsSquare g.length) :
    (reduced g).snapshot.Follows (selected g).snapshot := by
  have hselected : (reduced g).snapshot.selected = [] := filled_eq_nil fun _ => content_replicate _
  have hprepared : (reduced g).snapshot.prepared = [] := filled_eq_nil fun _ => content_replicate _
  exact
    { step_eq := rfl
      rows_kept := by simp [hselected]
      cols_kept := by simp [hselected]
      numSelected_eq := fun hphase => absurd rfl hphase
      searched := fun hsearch => absurd (Option.some.inj hsearch) (by decide)
      prepared_eq := fun _ _ => (filled_eq_nil (Run.opened hg).marks).trans hprepared.symm }

omit [LinearOrder α] [LawfulScalar α] in
theorem Run.snapshots_completed (p : Equiv.Perm (Fin g.length)) :
    (completed g entries w p passes flips).snapshots =
      (Work.reduced g).snapshot :: (Work.selected g).snapshot ::
        (entries.map Work.snapshot ++ [(w.into .done).snapshot]) := by
  simp [snapshots, completed]

theorem Run.inOrder (hg : g.IsSquare g.length)
    (search : (Work.selected g).next.Passes entries w passes flips)
    (optimal : w.coverage.isOptimal = true) (p : Equiv.Perm (Fin g.length)) :
    Snapshot.InOrder (completed g entries w p passes flips).snapshots passes flips := by
  have hready : (Work.selected g).next.IsReady g.length := Work.selected_ready hg
  have hsnapshots : (completed g entries w p passes flips).snapshots = _ := snapshots_completed p
  have hphases : (completed g entries w p passes flips).snapshots.map Snapshot.phase =
      some .reduce :: some .select :: (entries.map Work.phase ++ [some .done]) := by
    rw [hsnapshots, List.map_cons, List.map_cons, List.map_append, List.map_map]
    rfl
  obtain ⟨hlength, hcount⟩ := search.count_phases
  obtain ⟨hchain, before, last, hlast, hw⟩ := search.isChain hready rfl
  obtain ⟨word, hword, hmem, -⟩ := search.exists_word hready optimal
  have hall : (completed g entries w p passes flips).snapshots.IsChain Snapshot.Follows := by
    have hdone : last.snapshot.Follows (w.into .done).snapshot := by
      rw [hw]
      exact .of_eq rfl rfl rfl rfl (by decide) (by decide)
    have hjoined : (Work.selected g).snapshot ::
        (entries.map Work.snapshot ++ [(w.into .done).snapshot]) =
          before.map Work.snapshot ++ [last.snapshot, (w.into .done).snapshot] := by
      rw [← List.cons_append, ← List.map_cons, hlast]
      simp
    rw [hlast, List.map_append] at hchain
    rw [hsnapshots, List.isChain_cons_cons, hjoined, List.isChain_append_cons_cons]
    exact ⟨Work.follows_reduced hg, hchain, hdone, List.isChain_singleton _⟩
  refine ⟨⟨_, Phase.mem_course hmem, ?_⟩, ?_, ?_, hall⟩
  · rw [hphases, hword]
    simp
  · rw [hsnapshots] at hall ⊢
    rw [Snapshot.map_step_eq hall, List.range_eq_range']
    simp [hlength]
    rfl
  · rw [hphases]
    simp [hcount]

end Run

namespace Session

variable {n : Nat} {g : Grid ℚ} {s : Session ℚ} {table : Table ℚ} {seen : List (Snapshot ℚ)}

/-- The trace of a session: the phases recorded form a word of the language of a run, and every pass
begins with an uncovered zero. The steps are numbered without a gap, three for each pass and three
besides. Matched lines stay matched, each flip adds one selected zero and nothing else after the
selection changes their number. Between two flips no row is prepared twice. -/
theorem recorded_trace (hn : 1 ≤ n) (hg : g.IsSquare n) (ht : table.Holds g)
    (ho : s.observers = [.recorder seen]) (hc : s.ceiling = .null) :
    ∃ (a : Assignment ℚ) (snapshots : List (Snapshot ℚ)),
      (s.solve table).2.outcome = .ok a ∧
      (s.solve table).1.observers = [.recorder snapshots] ∧
      (∃ word ∈ Phase.course.matches', snapshots.map Snapshot.phase = word.map some) ∧
      (∀ w, (Run.opening g).work.Begins w →
        ∃ cell, w.matrix.findUncoveredZero w.coverage = .ok (some cell)) ∧
      snapshots.map Snapshot.step = List.range (3 * a.iterations + 3) ∧
      (snapshots.map Snapshot.phase).count (some .augment) = a.augmentations ∧
      (∀ before shown shown' after, snapshots = before ++ shown :: shown' :: after →
        shown.phase ≠ some .reduce → shown'.numSelected =
          shown.numSelected + if shown'.phase = some .augment then 1 else 0) ∧
      (snapshots.Pairwise fun shown shown' =>
        shown.selected.map Prod.fst ⊆ shown'.selected.map Prod.fst ∧
          shown.selected.map Prod.snd ⊆ shown'.selected.map Prod.snd) ∧
      (∀ shown ∈ snapshots, shown.phase = some .search →
        ∃ cell ∈ shown.prepared, shown.found? = some cell) ∧
      ∀ stretch ∈ snapshots.splitOnP (·.phase = some .augment),
        (Snapshot.rowsPrepared stretch).Nodup := by
  have haccept : table.accept s.finite = .ok g := Table.accept_eq ht hn hg fun _ _ _ _ _ => rfl
  obtain rfl := hg.1
  obtain ⟨entries, w, p, passes, flips, search, optimal, -, hrun, -, -⟩ := Run.solveStandard_eq hg
  have hceiling : Run.solve (.ofValue g.length s.ceiling) g =
      Run.completed g entries w p passes flips := by
    rw [hc, ← hrun]
    rfl
  have hquiet : ∀ o ∈ s.observers, o.IsQuiet := by simp [ho, Observer.IsQuiet]
  have hresult := congrArg Run.result hceiling
  obtain ⟨hobservers, houtcome⟩ := solve_eq hquiet haccept hresult
  rw [ho, hceiling] at hobservers
  have horder := Run.inOrder hg search optimal p
  have hopening : (Run.opening g).work = (Work.selected g).next :=
    congrArg Leg.work (Run.opened hg).opening_eq
  refine ⟨_, (Run.completed g entries w p passes flips).snapshots, houtcome, ?_, horder.word, ?_,
    horder.steps, horder.flips_eq, ?_, Snapshot.pairwise_matched horder.isChain, ?_, ?_⟩
  · simpa [Observer.fresh, Observer.seeing] using hobservers
  · intro w hw
    rw [hopening] at hw
    exact hw.exists_findUncoveredZero (Work.selected_ready hg)
  · intro before shown shown' after hs
    have hchain := horder.isChain
    rw [hs, List.isChain_append_cons_cons] at hchain
    exact hchain.2.1.numSelected_eq
  · refine List.forall_mem_cons.mpr ⟨fun hsearch => ?_, Snapshot.exists_found horder.isChain⟩
    exact absurd (Option.some.inj hsearch) (by decide)
  · exact Snapshot.nodup_stretches horder.isChain (fun h => absurd (Option.some.inj h) (by decide))
      fun h => absurd (Option.some.inj h) (by decide)

theorem recorded_trace_three :
    1 ≤ 3 ∧ Grid.IsSquare 3 ([[1, 2, 3], [2, 4, 6], [3, 6, 9]] : Grid ℚ) ∧
      Table.Holds ([[1, 2, 3], [2, 4, 6], [3, 6, 9]] : Grid ℚ)
        (.rows [[1, 2, 3], [2, 4, 6], [3, 6, 9]]) ∧
      ∃ (a : Assignment ℚ) (snapshots : List (Snapshot ℚ)),
        (({ observers := [.recorder []] } : Session ℚ).solve
          (.rows [[1, 2, 3], [2, 4, 6], [3, 6, 9]])).2.outcome = .ok a ∧
        (({ observers := [.recorder []] } : Session ℚ).solve
          (.rows [[1, 2, 3], [2, 4, 6], [3, 6, 9]])).1.observers = [.recorder snapshots] ∧
        (∃ word ∈ Phase.course.matches', snapshots.map Snapshot.phase = word.map some) ∧
        snapshots.map Snapshot.step = List.range 12 := by
  obtain ⟨a, snapshots, houtcome, hobservers, hword, -, hsteps, -⟩ :=
    recorded_trace (n := 3) (g := [[1, 2, 3], [2, 4, 6], [3, 6, 9]])
      (s := { observers := [.recorder []] }) (by decide) (by decide) .rows rfl rfl
  have hrun : (({ observers := [.recorder []] } : Session ℚ).solve
      (.rows [[1, 2, 3], [2, 4, 6], [3, 6, 9]])).2.outcome.toOption.map (·.iterations) =
        some 3 := by cbv
  rw [houtcome] at hrun
  have hiterations : a.iterations = 3 := Option.some.inj hrun
  rw [hiterations] at hsteps
  exact ⟨by decide, by decide, .rows, a, snapshots, houtcome, hobservers, hword, hsteps⟩

end Session

end OptimalAssignment
