import Mathlib
import OptimalAssignment.Workbench
import OptimalAssignment.Proofs.Cost.Exact
import OptimalAssignment.Proofs.Matching.Flip
import OptimalAssignment.Proofs.Matching.Greedy
import OptimalAssignment.Proofs.Matching.Signed

/-!
Histories of a matching at the workbench. Whatever is selected, unselected, prepared, selected
greedily or augmented, and whichever of these fail, the two records of selected zeros undo each
other. That is why it is enough for unselecting to look into one of them.
-/
namespace OptimalAssignment

open Matching

/-! ### Signed matchings that are paired -/

namespace Matching

variable {n row col : Nat} {m : Matching Nat} {slots : List (Option Nat)} {i k : Nat}

theorem getElem?_signedSlots_iff :
    (signedSlots slots)[i]? = some (some (k : Int)) ↔ content slots i = some k := by
  rw [signedSlots, List.getElem?_map, content_eq_some_iff]
  cases slots[i]? with
  | none => simp
  | some slot => cases slot <;> simp

theorem exists_getElem?_signedSlots_iff :
    (∃ x, (signedSlots slots)[i]? = some (some x)) ↔ (content slots i).isSome := by
  rw [signedSlots, List.getElem?_map, content]
  cases slots[i]? with
  | none => simp
  | some slot => cases slot <;> simp

theorem content_of_signedSlots (h : (signedSlots slots)[i]? = some none) :
    content slots i = none := by
  by_contra hcontent
  obtain ⟨x, hx⟩ := exists_getElem?_signedSlots_iff.mpr (Option.isSome_iff_ne_none.mpr hcontent)
  exact Option.some_ne_none x (Option.some.inj (hx.symm.trans h))

theorem exists_of_mem_signedSlots {x : Int} (h : some x ∈ signedSlots slots) :
    ∃ i k, content slots i = some k ∧ x = (k : Int) := by
  obtain ⟨slot, hslot, hx⟩ := List.mem_map.mp h
  obtain ⟨k, rfl, rfl⟩ := Option.map_eq_some_iff.mp hx
  obtain ⟨i, hi⟩ := List.mem_iff_getElem?.mp hslot
  exact ⟨i, k, content_eq_some_iff.mpr hi, rfl⟩

theorem nodup_fst_signed (m : Matching Nat) : (m.signed.selectedPairs.map Prod.fst).Nodup := by
  have hmap : m.signed.selectedPairs.map Prod.fst = m.selectedPairs.map Prod.fst := by
    rw [selectedPairs_signed, List.map_map]
    rfl
  rw [hmap]
  exact nodup_fst_filled m.colOfRow

namespace Paired

section

variable (h : m.Paired n)
include h

/-- There are as many selected zeros as matched columns. -/
theorem numSelected_eq : m.numSelected = m.rowOfCol.countP Option.isSome := by
  rw [← h.card_matchedCols, countP_eq_card, h.length_rows, matchedCols]
  simp only [row?, isSome_content]

theorem nodup_snd_signed : (m.signed.selectedPairs.map Prod.snd).Nodup := by
  have hmap : m.signed.selectedPairs.map Prod.snd =
      (m.selectedPairs.map Prod.snd).map Nat.cast := by
    rw [selectedPairs_signed, List.map_map, List.map_map]
    rfl
  rw [hmap]
  exact h.nodup_cols.map Nat.cast_injective

/-- Every name in a record is that of a line. -/
theorem inside_signed {x : Int} (hx : some x ∈ m.signed.colOfRow ∨ some x ∈ m.signed.rowOfCol) :
    0 ≤ x ∧ x < n := by
  rcases hx with hx | hx
  · obtain ⟨row, col, hs, rfl⟩ := exists_of_mem_signedSlots hx
    have hc := h.col_lt hs
    omega
  · obtain ⟨col, row, hs, rfl⟩ := exists_of_mem_signedSlots hx
    have hr := h.row_lt ((h.inverse row col).mpr hs)
    omega

end

variable (h : m.Paired n) (hr : row < n) (hc : col < n)
include h hr hc

theorem isTaken_eq : m.isTaken row col = .ok ((m.col? row).isSome || (m.row? col).isSome) := by
  rw [isTaken, h.selectedCol_eq hr, h.selectedRow_eq hc]
  cases m.col? row <;> rfl

theorem select_eq_error (ht : (m.col? row).isSome ∨ (m.row? col).isSome) :
    m.select row col = .error (.lineTaken row col) := by
  refine select_of_taken ?_
  rw [h.isTaken_eq hr hc, Except.ok.injEq, Bool.or_eq_true]
  exact ht

omit hc in
theorem unselect_eq_error (hne : m.col? row ≠ some col) :
    m.unselect row col = .error (.notSelected row col) :=
  unselect_of_other (h.selectedCol_eq hr) hne

end Paired

end Matching

namespace Workbench

variable {α : Type}

/-! ### Moves -/

/-- A change of the matching; the lines are named by their numbers. -/
inductive Move where
  | select (row col : Nat)
  | unselect (row col : Nat)
  | prepare (row col : Nat)
  | clearPrepared
  /-- The greedy selection on a mask. -/
  | greedy (mask : Grid Bool)
  /-- Build a path and, if that succeeds, flip it at once. -/
  | augment (row col : Nat)

/-- Whether a move keeps to `n` rows and columns; a path starts in a row without a selected zero. -/
def Move.Suits (n : Nat) (b : Workbench α) : Move → Prop
  | select row col | unselect row col | prepare row col => row < n ∧ col < n
  | clearPrepared => True
  | greedy mask => mask.IsSquare n
  | augment row col => row < n ∧ col < n ∧ b.matching.selectedCol row = .ok none

instance (n : Nat) (b : Workbench α) (move : Move) : Decidable (move.Suits n b) :=
  match move with
  | .select _ _ | .unselect _ _ | .prepare _ _ => inferInstanceAs (Decidable (_ ∧ _))
  | .clearPrepared => inferInstanceAs (Decidable True)
  | .greedy mask => inferInstanceAs (Decidable (mask.IsSquare n))
  | .augment _ _ => inferInstanceAs (Decidable (_ ∧ _ ∧ _))

/-- Whether the matching on the workbench is a paired one, with marks that name columns. -/
structure Holds (b : Workbench α) (n : Nat) (m : Matching Nat) : Prop where
  matching_eq : b.matching = m.signed
  paired : m.Paired n
  mark_lt : ∀ row col, m.mark? row = some col → col < n

section Holds

variable {n : Nat} {b b' : Workbench α} {m m' : Matching Nat}

theorem holds_empty (hb : b.matching = .empty Int n) : b.Holds n (.empty Nat n) where
  matching_eq := hb.trans (signed_empty n).symm
  paired := paired_empty n
  mark_lt row col hmark := by simp [mark?, Matching.empty] at hmark

theorem Holds.of_marks (h : b.Holds n m) (hb' : b'.matching = m'.signed) (hm' : m'.Paired n)
    (hmarks : m'.markOfRow = m.markOfRow) : b'.Holds n m' where
  matching_eq := hb'
  paired := hm'
  mark_lt row col hmark := h.mark_lt row col (by rw [mark?, ← hmarks]; exact hmark)

theorem Holds.of_unmarked (hb' : b'.matching = m'.signed) (hm' : m'.Paired n)
    (hmarks : ∀ row, m'.mark? row = none) : b'.Holds n m' where
  matching_eq := hb'
  paired := hm'
  mark_lt row col hmark := absurd ((hmarks row).symm.trans hmark) (Option.some_ne_none col).symm

end Holds

variable [Scalar α]

/-- Make a move. -/
def make (b : Workbench α) : Move → Outcome α
  | .select row col => b.perform (.select row col)
  | .unselect row col => b.perform (.unselect row col)
  | .prepare row col => b.perform (.prepare row col)
  | .clearPrepared => b.perform .clearPrepared
  | .greedy mask => b.perform (.greedyMask mask)
  | .augment row col =>
    match b.perform (.buildPath row col) with
    | (built, .ok _) => built.perform .applyPath
    | stuck => stuck

/-- The workbench after some moves, whether they succeeded or not. -/
def makeAll (b : Workbench α) (moves : List Move) : Workbench α :=
  moves.foldl (fun b move => (b.make move).1) b

/-- Whether moves made one after the other each suit the workbench they find. -/
def Suited (n : Nat) : Workbench α → List Move → Prop
  | _, [] => True
  | b, move :: rest => move.Suits n b ∧ Suited n (b.make move).1 rest

instance decidableSuited (n : Nat) : (b : Workbench α) → (moves : List Move) →
    Decidable (b.Suited n moves)
  | _, [] => inferInstanceAs (Decidable True)
  | b, move :: rest =>
    have := decidableSuited n (b.make move).1 rest
    inferInstanceAs (Decidable (move.Suits n b ∧ Suited n (b.make move).1 rest))

/-! ### Single moves -/

variable {n row col : Nat} {b b' : Workbench α} {m m' : Matching Nat} {moves : List Move}

namespace Holds

section Cells

variable (h : b.Holds n m) (hr : row < n)
include h

theorem unselect_selected (hs : m.col? row = some col) :
    ∃ m', b.perform (.unselect row col) = ({ b with matching := m'.signed }, .ok .nothing) ∧
      ({ b with matching := m'.signed } : Workbench α).Holds n m' := by
  obtain ⟨m', hunselect, hm', hmarks, -⟩ := h.paired.unselect hs
  refine ⟨m', ?_, h.of_marks rfl hm' hmarks⟩
  rw [perform, h.matching_eq, unselect_signed, hunselect]
  rfl

include hr

theorem unselect_other (hne : m.col? row ≠ some col) :
    b.perform (.unselect row col) = (b, .error (.fault (.notSelected row col))) := by
  rw [perform, h.matching_eq, unselect_signed, h.paired.unselect_eq_error hr hne]
  rfl

theorem augment (hfree : m.col? row = none) :
    ∃ m', (b.make (.augment row col)).1.Holds n m' := by
  have hbuild := AlternatingPath.build_signed m row col
  rw [← h.matching_eq] at hbuild
  rw [make, perform, hbuild]
  cases hpath : AlternatingPath.build m row col with
  | error fault => exact ⟨m, h⟩
  | ok path =>
    have hcol := lt_of_build h.paired hpath
    obtain ⟨prepared, selected, last, chain, rfl⟩ :=
      (build_eq_ok_iff h.paired h.mark_lt hcol).mp hpath
    obtain ⟨m', hflip, hm', hclear, -⟩ := flip_spec h.paired h.mark_lt chain hr hcol hfree
    refine ⟨m', .of_unmarked ?_ hm' hclear⟩
    simp only [Except.map, perform, h.matching_eq, AlternatingPath.flip_signed, hflip]
    rfl

variable (hc : col < n)
include hc

theorem select_taken (ht : (m.col? row).isSome ∨ (m.row? col).isSome) :
    b.perform (.select row col) = (b, .error (.fault (.lineTaken row col))) := by
  rw [perform, h.matching_eq, select_signed, h.paired.select_eq_error hr hc ht]
  rfl

theorem select_free (hrow : m.col? row = none) (hcol : m.row? col = none) :
    ∃ m', b.perform (.select row col) = ({ b with matching := m'.signed }, .ok .nothing) ∧
      ({ b with matching := m'.signed } : Workbench α).Holds n m' := by
  obtain ⟨m', hselect, hm', hmarks, -⟩ := h.paired.select hr hc hrow hcol
  refine ⟨m', ?_, h.of_marks rfl hm' hmarks⟩
  rw [perform, h.matching_eq, select_signed, hselect]
  rfl

theorem prepare : ∃ m', (b.perform (.prepare row col)).1.Holds n m' := by
  refine ⟨m.marked row col, ?_, h.paired.marked row col, fun row' col' hmark => ?_⟩
  · rw [perform, h.matching_eq, prepare_signed, h.paired.prepare_eq hr]
    rfl
  · rw [h.paired.mark?_marked hr] at hmark
    split at hmark
    · rw [← Option.some.inj hmark]
      exact hc
    · exact h.mark_lt row' col' hmark

end Cells

theorem greedy (h : b.Holds n m) {mask : Grid Bool} (hmask : mask.IsSquare n) :
    ∃ m', (b.perform (.greedyMask mask)).1.Holds n m' := by
  obtain ⟨hm', hmarks⟩ := Greedy.paired_run hmask h.paired
  refine ⟨_, h.of_marks ?_ hm' hmarks⟩
  rw [perform, Workbench.greedy, h.matching_eq, Greedy.run_signed]
  cases hfault : (Greedy.run mask m).fault <;> simp [halfway, Greedy.Outcome.signed, hfault]

/-- Every move leaves a paired matching behind, whether it succeeds or not. -/
theorem make (h : b.Holds n m) {move : Move} (hs : move.Suits n b) :
    ∃ m', (b.make move).1.Holds n m' := by
  cases move with
  | select row col =>
    obtain ⟨hr, hc⟩ := hs
    by_cases ht : (m.col? row).isSome ∨ (m.row? col).isSome
    · exact ⟨m, by rw [Workbench.make, h.select_taken hr hc ht]; exact h⟩
    · rw [not_or, Option.not_isSome_iff_eq_none, Option.not_isSome_iff_eq_none] at ht
      obtain ⟨m', hselect, hholds⟩ := h.select_free hr hc ht.1 ht.2
      exact ⟨m', by rw [Workbench.make, hselect]; exact hholds⟩
  | unselect row col =>
    by_cases hselected : m.col? row = some col
    · obtain ⟨m', hunselect, hholds⟩ := h.unselect_selected hselected
      exact ⟨m', by rw [Workbench.make, hunselect]; exact hholds⟩
    · exact ⟨m, by rw [Workbench.make, h.unselect_other hs.1 hselected]; exact h⟩
  | prepare row col => exact h.prepare hs.1 hs.2
  | clearPrepared =>
    refine ⟨m.clearPrepared, .of_unmarked ?_ h.paired.clearPrepared (mark?_clearPrepared m)⟩
    rw [Workbench.make, perform, h.matching_eq, clearPrepared_signed]
    rfl
  | greedy mask => exact h.greedy hs
  | augment row col =>
    obtain ⟨hr, -, hfree⟩ := hs
    refine h.augment hr ?_
    rw [h.matching_eq, selectedCol_signed, h.paired.selectedCol_eq hr] at hfree
    exact Option.map_eq_none_iff.mp (Except.ok.inj hfree)

theorem makeAll (h : b.Holds n m) (hs : b.Suited n moves) :
    ∃ m', (b.makeAll moves).Holds n m' := by
  induction moves generalizing b m with
  | nil => exact ⟨m, h⟩
  | cons move moves ih =>
    obtain ⟨m₁, h₁⟩ := h.make hs.1
    exact ih h₁ hs.2

end Holds

/-! ### What a history leaves behind -/

/-- The books of a matching stay in order. After any moves that suit the workbench they find, from
the empty matching on and whichever of them fail, the two records of selected zeros name lines of
the matching and undo each other; so no line is in two selected pairs, and there are as many of them
as matched columns. Selecting fails exactly if the row or the column is taken, unselecting exactly
if the pair is not selected, and then nothing changes. -/
theorem makeAll_inverse (hb : b.matching = .empty Int n) (hs : b.Suited n moves)
    (hmade : b.makeAll moves = b') :
    b'.matching.colOfRow.length = n ∧ b'.matching.rowOfCol.length = n ∧
      (∀ x : Int, some x ∈ b'.matching.colOfRow ∨ some x ∈ b'.matching.rowOfCol → 0 ≤ x ∧ x < n) ∧
      (∀ row col : Nat, b'.matching.colOfRow[row]? = some (some (col : Int)) ↔
        b'.matching.rowOfCol[col]? = some (some (row : Int))) ∧
      (b'.matching.selectedPairs.map Prod.fst).Nodup ∧
      (b'.matching.selectedPairs.map Prod.snd).Nodup ∧
      b'.matching.numSelected = b'.matching.rowOfCol.countP Option.isSome ∧
      ∀ row < n, ∀ col < n,
        ((∃ x, b'.matching.colOfRow[row]? = some (some x)) ∨
            (∃ x, b'.matching.rowOfCol[col]? = some (some x)) →
          b'.perform (.select row col) = (b', .error (.fault (.lineTaken row col)))) ∧
        (b'.matching.colOfRow[row]? = some none → b'.matching.rowOfCol[col]? = some none →
          ∃ m, b'.perform (.select row col) = ({ b' with matching := m }, .ok .nothing)) ∧
        (b'.matching.colOfRow[row]? ≠ some (some (col : Int)) →
          b'.perform (.unselect row col) = (b', .error (.fault (.notSelected row col)))) ∧
        (b'.matching.colOfRow[row]? = some (some (col : Int)) →
          ∃ m, b'.perform (.unselect row col) = ({ b' with matching := m }, .ok .nothing)) := by
  obtain ⟨m, h⟩ := (holds_empty hb).makeAll hs
  rw [hmade] at h
  rw [h.matching_eq]
  refine ⟨?_, ?_, fun x => h.paired.inside_signed, fun row col => ?_, nodup_fst_signed m,
    h.paired.nodup_snd_signed, ?_, fun row hr col hc => ⟨fun ht => ?_, fun hrow hcol => ?_,
      fun hne => ?_, fun hselected => ?_⟩⟩
  · exact (List.length_map _).trans h.paired.length_cols
  · exact (List.length_map _).trans h.paired.length_rows
  · exact getElem?_signedSlots_iff.trans
      ((h.paired.inverse row col).trans getElem?_signedSlots_iff.symm)
  · rw [numSelected_signed, h.paired.numSelected_eq]
    exact (countP_signedSlots m.rowOfCol).symm
  · exact h.select_taken hr hc
      (ht.imp exists_getElem?_signedSlots_iff.mp exists_getElem?_signedSlots_iff.mp)
  · obtain ⟨m', hselect, -⟩ :=
      h.select_free hr hc (content_of_signedSlots hrow) (content_of_signedSlots hcol)
    exact ⟨_, hselect⟩
  · exact h.unselect_other hr fun hs => hne (getElem?_signedSlots_iff.mpr hs)
  · obtain ⟨m', hunselect, -⟩ := h.unselect_selected (getElem?_signedSlots_iff.mp hselected)
    exact ⟨_, hunselect⟩

theorem makeAll_inverse_three :
    (ofSize 3 : Workbench ℚ).Suited 3
        [.select 0 0, .select 0 1, .unselect 1 1, .prepare 0 1, .augment 1 0] ∧
      ∃ m, ((ofSize 3 : Workbench ℚ).makeAll
          [.select 0 0, .select 0 1, .unselect 1 1, .prepare 0 1, .augment 1 0]).matching = m ∧
        m.colOfRow = [some 1, some 0, none] ∧ m.rowOfCol[0]? = some (some 1) ∧
        m.numSelected = m.rowOfCol.countP Option.isSome := by
  have hsuited : (ofSize 3 : Workbench ℚ).Suited 3
      [.select 0 0, .select 0 1, .unselect 1 1, .prepare 0 1, .augment 1 0] := by
    decide +kernel
  have hcols : ((ofSize 3 : Workbench ℚ).makeAll
      [.select 0 0, .select 0 1, .unselect 1 1, .prepare 0 1, .augment 1 0]).matching.colOfRow =
        [some 1, some 0, none] := by
    decide +kernel
  obtain ⟨-, -, -, hinverse, -, -, hcount, -⟩ := makeAll_inverse rfl hsuited rfl
  refine ⟨hsuited, _, rfl, hcols, (hinverse 1 0).mp ?_, hcount⟩
  rw [hcols]
  rfl

end Workbench

end OptimalAssignment
