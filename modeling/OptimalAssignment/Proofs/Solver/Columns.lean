import OptimalAssignment.Solver.Columns
import OptimalAssignment.Proofs.Matching.Pairing
import OptimalAssignment.Proofs.Cost.Adjustment

/-!
Column lists and permutations. The column list of a permutation has the column list of the inverse
permutation for its inverse, and a matching in which every row holds a selected zero gives the
column list of a permutation.
-/
namespace OptimalAssignment

namespace Columns

variable {n : Nat}

/-- The column list of a permutation. -/
def ofPerm (p : Equiv.Perm (Fin n)) : List Nat :=
  List.ofFn fun i => (p i : Nat)

@[simp] theorem ofPerm_getElem? (p : Equiv.Perm (Fin n)) (i : Fin n) :
    (ofPerm p)[(i : Nat)]? = some (p i : Nat) := by
  simp [ofPerm]

theorem ofPerm_injective : Function.Injective (@ofPerm n) := by
  intro p q h
  refine Equiv.ext fun i => Fin.val_injective (Option.some.inj ?_)
  rw [← ofPerm_getElem? p i, h, ofPerm_getElem?]

/-- A permutation has one column list, whatever its size is called. -/
theorem ofPerm_permCongr {k : Nat} (h : n = k) (p : Equiv.Perm (Fin n)) :
    ofPerm ((finCongr h).permCongr p) = ofPerm p := by
  subst h
  rfl

/-- Writing rows to the places of different columns leaves each of them there. -/
theorem fill_spec {entries : List (Nat × Nat)} {rows : List Nat}
    (hlt : ∀ entry ∈ entries, entry.2 < rows.length) (hnodup : (entries.map Prod.snd).Nodup) :
    ∃ filled, fill entries rows = .ok filled ∧ filled.length = rows.length ∧
      (∀ entry ∈ entries, filled[entry.2]? = some entry.1) ∧
      ∀ col ∉ entries.map Prod.snd, filled[col]? = rows[col]? := by
  induction entries generalizing rows with
  | nil => exact ⟨rows, rfl, rfl, by simp, fun _ _ => rfl⟩
  | cons entry entries ih =>
    obtain ⟨row, col⟩ := entry
    obtain ⟨hcol, hrest⟩ := List.nodup_cons.mp hnodup
    have hc : col < rows.length := hlt (row, col) List.mem_cons_self
    have hlt' : ∀ entry ∈ entries, entry.2 < (rows.set col row).length := by
      intro entry he
      rw [List.length_set]
      exact hlt entry (List.mem_cons_of_mem _ he)
    obtain ⟨filled, hfill, hlen, hmem, hother⟩ := ih hlt' hrest
    refine ⟨filled, ?_, hlen.trans List.length_set, ?_, ?_⟩
    · rw [fill, Position.set?_nat, if_pos hc]
      exact hfill
    · intro entry he
      rcases List.mem_cons.mp he with rfl | he
      · rw [hother col hcol, List.getElem?_set_self hc]
      · exact hmem entry he
    · intro col' hc'
      rw [List.map_cons, List.mem_cons, not_or] at hc'
      rw [hother col' hc'.2, List.getElem?_set_ne (Ne.symm hc'.1)]

theorem mem_pairs_ofPerm_iff {p : Equiv.Perm (Fin n)} {row col : Nat} :
    (row, col) ∈ pairs (ofPerm p) ↔ ∃ i : Fin n, (i : Nat) = row ∧ (p i : Nat) = col := by
  simp only [pairs, List.mem_map, Prod.mk.injEq, Prod.exists]
  constructor
  · rintro ⟨col', row', hmem, rfl, rfl⟩
    have hget := List.mk_mem_zipIdx_iff_getElem?.mp hmem
    have hlt : row' < n := by simpa [ofPerm] using (List.getElem?_eq_some_iff.mp hget).1
    have hcol := ofPerm_getElem? p ⟨row', hlt⟩
    exact ⟨⟨row', hlt⟩, rfl, Option.some.inj (hcol.symm.trans hget)⟩
  · rintro ⟨i, rfl, rfl⟩
    exact ⟨p i, i, List.mk_mem_zipIdx_iff_getElem?.mpr (ofPerm_getElem? p i), rfl, rfl⟩

theorem map_snd_pairs {P : Type} (cols : List P) : (pairs cols).map Prod.snd = cols := by
  rw [pairs, List.map_map]
  exact List.zipIdx_map_fst 0 cols

/-- The inverse of a column list is the column list of the inverse. -/
@[simp] theorem inverse_ofPerm (p : Equiv.Perm (Fin n)) :
    inverse (ofPerm p) = .ok (ofPerm p.symm) := by
  have hlen : (ofPerm p).length = n := by simp [ofPerm]
  have hlt : ∀ entry ∈ pairs (ofPerm p), entry.2 < (List.replicate (ofPerm p).length 0).length := by
    rintro ⟨row, col⟩ hmem
    obtain ⟨i, rfl, rfl⟩ := mem_pairs_ofPerm_iff.mp hmem
    simp [hlen]
  have hnodup : ((pairs (ofPerm p)).map Prod.snd).Nodup := by
    rw [map_snd_pairs, ofPerm, List.nodup_ofFn]
    exact Fin.val_injective.comp p.injective
  obtain ⟨filled, hfill, hsize, hmem, -⟩ := fill_spec hlt hnodup
  rw [inverse, hfill]
  congr 1
  refine List.ext_getElem? fun col => ?_
  by_cases hc : col < n
  · have hentry := hmem (p.symm ⟨col, hc⟩, col) (mem_pairs_ofPerm_iff.mpr
      ⟨p.symm ⟨col, hc⟩, rfl, by rw [p.apply_symm_apply]⟩)
    exact hentry.trans (ofPerm_getElem? p.symm ⟨col, hc⟩).symm
  · rw [List.getElem?_eq_none, List.getElem?_eq_none] <;> simp [ofPerm, hsize] <;> omega

/-! ### Costs -/

theorem mapM_eq_ok {ε β γ : Type} {f : β → Except ε γ} {k : β → γ} {xs : List β}
    (h : ∀ x ∈ xs, f x = .ok (k x)) : xs.mapM f = .ok (xs.map k) := by
  induction xs with
  | nil => rfl
  | cons x xs ih =>
    rw [List.mapM_cons, h x List.mem_cons_self,
      ih fun y hy => h y (List.mem_cons_of_mem _ hy)]
    rfl

variable {α : Type} [Scalar α] {m : CostMatrix α}

/-- The given costs of the cells that a permutation picks, from the first row to the last. -/
theorem chosenCosts_ofPerm (hm : m.given.IsSquare n) (hv : m.size = n) (p : Equiv.Perm (Fin n)) :
    m.chosenCosts (ofPerm p) = .ok (List.ofFn fun i : Fin n => m.given.entry i (p i)) := by
  have hlen : (ofPerm p).length = n := by simp [ofPerm]
  have hcells : (List.zip m.given (ofPerm p)).map (fun entry => (entry.1[entry.2]?).getD 0) =
      List.ofFn fun i : Fin n => m.given.entry i (p i) := by
    refine List.ext_getElem? fun row => ?_
    by_cases hr : row < n
    · obtain ⟨cells, hcells, -⟩ := hm.exists_row hr
      have hcol := ofPerm_getElem? p ⟨row, hr⟩
      simp [List.getElem?_zip_eq_some, hcells, hcol, Grid.entry, Grid.cell?, hr]
    · rw [List.getElem?_eq_none, List.getElem?_eq_none] <;> simp [hlen, hm.1] <;> omega
  rw [CostMatrix.chosenCosts, hlen, hv, ← hcells]
  simp only [CostMatrix.common?, true_or, ↓reduceIte, CostMatrix.stretch_eq hm.1,
    CostMatrix.stretch_eq hlen]
  apply mapM_eq_ok
  rintro ⟨row, col⟩ hmem
  obtain ⟨hrow, hcol⟩ := List.of_mem_zip hmem
  obtain ⟨i, rfl⟩ := (List.mem_ofFn' _ _).mp hcol
  have hlt : (p i : Nat) < row.length := by rw [hm.2 row hrow]; exact (p i).isLt
  simp [Position.get?_nat, hlt]

theorem costOf_ofPerm (hm : m.given.IsSquare n) (hv : m.size = n) (p : Equiv.Perm (Fin n)) :
    m.costOf (ofPerm p) =
      .ok (LaneSum.total (List.ofFn fun i : Fin n => m.given.entry i (p i))) := by
  simp [CostMatrix.costOf, chosenCosts_ofPerm hm hv, Except.map]

end Columns

/-! ### Perfect matchings -/

namespace Matching

variable {n : Nat} {m : Matching Nat}

theorem filterMap_id_eq {slots : List (Option Nat)} {cols : List Nat}
    (h : slots = cols.map some) : slots.filterMap id = cols := by
  rw [h, List.filterMap_map]
  exact List.filterMap_some

/-- The columns of the rows, if they are those of a permutation. -/
theorem Paired.filterMap_colOfRow (h : m.Paired n) {p : Equiv.Perm (Fin n)}
    (hp : ∀ i : Fin n, m.col? i = some (p i : Nat)) :
    m.colOfRow.filterMap id = Columns.ofPerm p := by
  refine filterMap_id_eq (List.ext_getElem? fun row => ?_)
  by_cases hr : row < n
  · have hlen : row < m.colOfRow.length := by rw [h.length_cols]; exact hr
    have hcontent : content m.colOfRow row = some (p ⟨row, hr⟩ : Nat) := hp ⟨row, hr⟩
    rw [getElem?_of_lt hlen, hcontent, List.getElem?_map, Columns.ofPerm_getElem? p ⟨row, hr⟩,
      Option.map_some]
  · rw [List.getElem?_eq_none, List.getElem?_eq_none] <;>
      simp [Columns.ofPerm, h.length_cols] <;> omega

/-- If every row holds a selected zero, the columns of the rows are those of a permutation. -/
theorem Paired.exists_perm (h : m.Paired n) (hall : ∀ row < n, (m.col? row).isSome) :
    ∃ p : Equiv.Perm (Fin n), ∀ i : Fin n, m.col? i = some (p i : Nat) := by
  have hsome : ∀ i : Fin n, ∃ j : Fin n, m.col? i = some (j : Nat) := by
    intro i
    obtain ⟨col, hc⟩ := Option.isSome_iff_exists.mp (hall i i.isLt)
    exact ⟨⟨col, h.col_lt hc⟩, hc⟩
  choose f hf using hsome
  have hinj : Function.Injective f := by
    intro i i' he
    have := h.col_inj (hf i) (he ▸ hf i')
    exact Fin.val_injective this
  obtain ⟨p, hp⟩ : ∃ p : Equiv.Perm (Fin n), ∀ i, p i = f i :=
    ⟨.ofBijective f (Finite.injective_iff_bijective.mp hinj), fun _ => rfl⟩
  exact ⟨p, fun i => by rw [hp, hf]⟩

end Matching

end OptimalAssignment
