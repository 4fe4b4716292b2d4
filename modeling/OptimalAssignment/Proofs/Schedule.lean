import Mathlib
import OptimalAssignment.Schedule

/-!
Boards under any schedule. A task acts at most twice: it writes its row, if it has one, and then it
ends. The acts of different tasks may come in any order, but each touches the places of its own task
only, so what a board holds in the end depends on the tasks alone. Workers that take up tasks from
the front come to one such order.
-/
namespace OptimalAssignment.Schedule

variable {ε β γ : Type} {n i : ℕ} {score : ℕ → Except ε β}

/-- Every task ends once. -/
theorem order_perm {workers : ℕ} (hworkers : 0 < workers) (picks waiting : List ℕ) :
    (order workers picks waiting).Perm waiting := by
  fun_induction order workers picks waiting with
  | case1 picks waiting inHand spot hs ih =>
    have hspot : spot < waiting.length := by
      simp only [inHand, List.length_take] at hs
      omega
    have hpicked : inHand[spot] = waiting[spot] := List.getElem_take
    rw [hpicked]
    exact (ih.cons _).trans (List.getElem_cons_eraseIdx_perm hspot)
  | case2 picks waiting inHand spot hs =>
    have hlength : inHand.length = 0 := by
      by_contra hne
      exact hs (Nat.mod_lt _ (Nat.pos_of_ne_zero hne))
    have hempty : waiting.length = 0 := by
      simp only [inHand, List.length_take] at hlength
      omega
    rw [List.length_eq_zero_iff.mp hempty]

/-! ### Acts -/

/-- One act of a task: its row is written, or it ends. -/
inductive Act (ε β : Type) where
  | write (task : ℕ) (row : β)
  | close (task : ℕ) (ending : Except ε Unit)

namespace Act

def task : Act ε β → ℕ
  | write task _ | close task _ => task

def row? : Act ε β → Option β
  | write _ row => some row
  | close .. => none

def ending? : Act ε β → Option (Except ε Unit)
  | write .. => none
  | close _ ending => some ending

/-- The acts of one task. -/
def ofTask (score : ℕ → Except ε β) (task : ℕ) : List (Act ε β) :=
  match score task with
  | .ok row => [write task row, close task (.ok ())]
  | .error fault => [close task (.error fault)]

theorem task_of_mem_ofTask {a : Act ε β} (h : a ∈ ofTask score i) : a.task = i := by
  rw [ofTask] at h
  cases hscore : score i with
  | ok row =>
    simp only [hscore, List.mem_cons, List.not_mem_nil, or_false] at h
    rcases h with rfl | rfl <;> rfl
  | error fault =>
    simp only [hscore, List.mem_cons, List.not_mem_nil, or_false] at h
    rw [h]
    rfl

end Act

/-! ### Slots -/

/-- Slots after something may have been noted in one of them. -/
def noted (slots : List (Option γ)) (i : ℕ) : Option γ → List (Option γ)
  | none => slots
  | some x => slots.set i (some x)

variable (told : Act ε β → Option γ)

/-- The slots of a number of tasks after acts that may each tell something. -/
def slotsAfter (n : ℕ) (acts : List (Act ε β)) : List (Option γ) :=
  acts.foldl (fun slots a => noted slots a.task (told a)) (List.replicate n none)

/-- The last that acts have told. -/
def lastTold (acts : List (Act ε β)) : Option γ :=
  acts.foldl (fun kept a => (told a).or kept) none

variable {acts : List (Act ε β)}

theorem slotsAfter_concat (acts : List (Act ε β)) (a : Act ε β) :
    slotsAfter told n (acts ++ [a]) = noted (slotsAfter told n acts) a.task (told a) := by
  rw [slotsAfter, List.foldl_append]
  rfl

theorem lastTold_concat (acts : List (Act ε β)) (a : Act ε β) :
    lastTold told (acts ++ [a]) = (told a).or (lastTold told acts) := by
  rw [lastTold, List.foldl_append]
  rfl

theorem length_slotsAfter : (slotsAfter told n acts).length = n := by
  induction acts using List.reverseRecOn with
  | nil => exact List.length_replicate
  | append_singleton acts a ih =>
    rw [slotsAfter_concat]
    cases told a with
    | none => exact ih
    | some x => exact List.length_set.trans ih

/-- Only the acts of a task touch its slot. -/
theorem getElem?_slotsAfter (hi : i < n) :
    (slotsAfter told n acts)[i]? = some (lastTold told (acts.filter (·.task = i))) := by
  induction acts using List.reverseRecOn with
  | nil => simp [slotsAfter, lastTold, hi]
  | append_singleton acts a ih =>
    rw [slotsAfter_concat, List.filter_append]
    by_cases ha : a.task = i
    · subst ha
      have hown : [a].filter (·.task = a.task) = [a] := by simp
      rw [hown, lastTold_concat]
      cases htold : told a with
      | none => exact ih
      | some x => simp [noted, length_slotsAfter, hi]
    · have hother : [a].filter (·.task = i) = [] := by simp [ha]
      rw [hother, List.append_nil, ← ih]
      cases told a with
      | none => rfl
      | some x => exact List.getElem?_set_ne ha

namespace Board

/-- The board after one act. -/
def act (board : Board ε β) : Act ε β → Board ε β
  | .write task row => {
      board with
      rows := board.rows.set task (some row)
      written := board.written ++ [task] }
  | .close task ending => { board with ends := board.ends.set task (some ending) }

/-- The board for a number of rows after some acts. -/
def after (n : ℕ) (acts : List (Act ε β)) : Board ε β :=
  acts.foldl act (blank n)

theorem finish_eq (board : Board ε β) :
    board.finish score i = (Act.ofTask score i).foldl act board := by
  rw [finish, Act.ofTask]
  cases score i <;> rfl

theorem rows_after : (after n acts).rows = slotsAfter Act.row? n acts := by
  refine (List.foldl_hom Board.rows fun board a => ?_).symm
  cases a <;> rfl

theorem ends_after : (after n acts).ends = slotsAfter Act.ending? n acts := by
  refine (List.foldl_hom Board.ends fun board a => ?_).symm
  cases a <;> rfl

theorem written_after :
    (after n acts).written = (acts.filter fun a => a.row?.isSome).map Act.task := by
  induction acts using List.reverseRecOn with
  | nil => rfl
  | append_singleton acts a ih =>
    rw [after, List.foldl_append, ← after, List.filter_append, List.map_append, ← ih]
    cases a <;> simp [act, Act.row?, Act.task]

end Board

/-! ### Acts in any order -/

/-- Whether a sequence of acts is made of those of a number of tasks, each of which acts in its own
order. -/
def Interleaves (score : ℕ → Except ε β) (n : ℕ) (acts : List (Act ε β)) : Prop :=
  ∀ i, acts.filter (·.task = i) = if i < n then Act.ofTask score i else []

theorem filter_flatMap_of_notMem {tasks : List ℕ} (h : i ∉ tasks) :
    (tasks.flatMap (Act.ofTask score)).filter (·.task = i) = [] := by
  rw [List.filter_eq_nil_iff]
  intro a ha
  obtain ⟨task, htask, hmem⟩ := List.mem_flatMap.mp ha
  have hne : task ≠ i := fun he => h (he ▸ htask)
  simpa [Act.task_of_mem_ofTask hmem] using hne

/-- Tasks that act one after the other, in any order. -/
theorem interleaves_of_perm {tasks : List ℕ} (h : tasks.Perm (List.range n)) :
    Interleaves score n (tasks.flatMap (Act.ofTask score)) := by
  intro i
  have hmem : i ∈ tasks ↔ i < n := by rw [h.mem_iff, List.mem_range]
  split_ifs with hi
  · obtain ⟨before, later, rfl⟩ := List.append_of_mem (hmem.mpr hi)
    have hnodup : (before ++ i :: later).Nodup := h.nodup_iff.mpr List.nodup_range
    rw [List.nodup_middle, List.nodup_cons, List.mem_append, not_or] at hnodup
    have hown : (Act.ofTask score i).filter (·.task = i) = Act.ofTask score i := by
      rw [List.filter_eq_self]
      exact fun a ha => decide_eq_true (Act.task_of_mem_ofTask ha)
    rw [List.flatMap_append, List.flatMap_cons, List.filter_append, List.filter_append,
      filter_flatMap_of_notMem hnodup.1.1, filter_flatMap_of_notMem hnodup.1.2, hown,
      List.nil_append, List.append_nil]
  · exact filter_flatMap_of_notMem (mt hmem.mp hi)

/-- Workers that take up tasks from the front. -/
theorem exists_run_eq (workers : ℤ) (picks : List ℕ) (n : ℕ) (score : ℕ → Except ε β) :
    ∃ acts, Interleaves score n acts ∧ run workers picks n score = Board.after n acts := by
  have hworkers : 0 < (max workers 1).toNat := by omega
  refine ⟨_, interleaves_of_perm (order_perm hworkers picks (List.range n)), ?_⟩
  rw [run, Board.after, List.foldl_flatMap]
  congr 1
  funext board task
  exact board.finish_eq

namespace Interleaves

variable (h : Interleaves score n acts)
include h

/-- Each slot holds what its own task told last. -/
theorem slotsAfter_eq (told : Act ε β → Option γ) :
    slotsAfter told n acts = (List.range n).map fun i => lastTold told (Act.ofTask score i) := by
  refine List.ext_getElem? fun i => ?_
  by_cases hi : i < n
  · rw [getElem?_slotsAfter _ hi, h i, if_pos hi]
    simp [hi]
  · rw [List.getElem?_eq_none (by rw [length_slotsAfter]; omega)]
    simp [hi]

theorem rows_eq : (Board.after n acts).rows = (List.range n).map fun i => (score i).toOption := by
  rw [Board.rows_after, h.slotsAfter_eq]
  refine List.map_congr_left fun i _ => ?_
  rw [Act.ofTask]
  cases score i <;> rfl

theorem ends_eq :
    (Board.after n acts).ends = (List.range n).map fun i => some ((score i).map fun _ => ()) := by
  rw [Board.ends_after, h.slotsAfter_eq]
  refine List.map_congr_left fun i _ => ?_
  rw [Act.ofTask]
  cases score i <;> rfl

/-- A row is written once if its task has one, and not at all otherwise. -/
theorem count_written :
    (Board.after n acts).written.count i = if i < n ∧ (score i).isOk then 1 else 0 := by
  have hcount : (Board.after n acts).written.count i =
      (acts.filter (·.task = i)).countP fun a => a.row?.isSome := by
    rw [Board.written_after, List.count, List.countP_map, List.countP_filter, List.countP_filter]
    refine List.countP_congr fun a _ => ?_
    simp [and_comm]
  rw [hcount, h i]
  by_cases hi : i < n
  · rw [if_pos hi, Act.ofTask]
    cases hscore : score i <;> simp [Act.row?, hi, Except.isOk, Except.toBool]
  · simp [hi]

theorem written_perm (hok : ∀ i < n, ∃ row, score i = .ok row) :
    (Board.after n acts).written.Perm (List.range n) := by
  rw [List.perm_iff_count]
  intro i
  rw [h.count_written]
  by_cases hi : i < n
  · obtain ⟨row, hrow⟩ := hok i hi
    rw [if_pos ⟨hi, by rw [hrow]; rfl⟩,
      List.count_eq_one_of_mem List.nodup_range (List.mem_range.mpr hi)]
  · rw [if_neg fun hboth => hi hboth.1, List.count_eq_zero_of_not_mem (mt List.mem_range.mp hi)]

theorem collect_eq {acts' : List (Act ε β)} (h' : Interleaves score n acts') :
    (Board.after n acts).collect = (Board.after n acts').collect := by
  rw [Board.collect, Board.collect, Board.firstFault?, Board.firstFault?, h.ends_eq, h'.ends_eq,
    h.rows_eq, h'.rows_eq]

/-- The fault that is reported is that of the first row whose task failed. -/
theorem collect_of_error {fault : ε} (hi : i < n) (hfault : score i = .error fault)
    (hbefore : ∀ k < i, ∃ row, score k = .ok row) :
    (Board.after n acts).collect = .error fault := by
  have hfirst : (Board.after n acts).firstFault? = some fault := by
    rw [Board.firstFault?, h.ends_eq, List.findSome?_map, List.findSome?_eq_some_iff]
    obtain ⟨k, rfl⟩ := Nat.exists_eq_add_of_lt hi
    refine ⟨List.range i, i, (List.range k).map (i + 1 + ·), ?_, ?_, ?_⟩
    · rw [Nat.add_right_comm, List.range_add, List.range_succ, List.append_assoc]
      rfl
    · simp [hfault, Except.map]
    · intro k hk
      obtain ⟨row, hrow⟩ := hbefore k (List.mem_range.mp hk)
      simp [hrow, Except.map]
  rw [Board.collect, hfirst]

theorem collect_of_ok (hok : ∀ i < n, ∃ row, score i = .ok row) :
    (Board.after n acts).collect = .ok (Board.after n acts).rows := by
  have hnone : (Board.after n acts).firstFault? = none := by
    rw [Board.firstFault?, h.ends_eq, List.findSome?_map, List.findSome?_eq_none_iff]
    intro i hi
    obtain ⟨row, hrow⟩ := hok i (List.mem_range.mp hi)
    simp [hrow, Except.map]
  rw [Board.collect, hnone]

end Interleaves

end OptimalAssignment.Schedule
