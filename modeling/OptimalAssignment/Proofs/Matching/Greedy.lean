import OptimalAssignment.Matching.Greedy
import OptimalAssignment.Proofs.Matching.Pairing
import OptimalAssignment.Proofs.Cost.Cell

/-!
The greedy selection on a mask with a zero in every row. While rows are served, each stored count is
the number of zeros that its row has in free columns, and every unselected row that still has such a
zero is among the counts. So no row is ever served in vain, and the outcome is a set of independent
zeros to which no zero can be added. A row without zeros has the least count of all, so then the
selection ends before it begins.
-/
namespace OptimalAssignment.Greedy

open Matching

variable {n row col count : Nat} {mask : Grid Bool} {counts : Counts} {m : Matching Nat}

/-! ### One choice -/

theorem leastCount?_eq_argmin (counts : Counts) : leastCount? counts = counts.argmin Prod.snd := by
  have hfold : ∀ (rest : Counts) (kept : Nat × Nat),
      some (rest.foldl (fun kept next => if next.2 < kept.2 then next else kept) kept) =
        rest.foldl (List.argAux fun next kept => next.2 < kept.2) (some kept) := by
    intro rest
    induction rest with
    | nil => exact fun _ => rfl
    | cons next rest ih =>
      intro kept
      rw [List.foldl_cons, List.foldl_cons, ih]
      simp only [List.argAux, apply_ite some]
  cases counts with
  | nil => rfl
  | cons first rest => exact hfold rest first

theorem leastCount?_mem {entry : Nat × Nat} (h : leastCount? counts = some entry) :
    entry ∈ counts :=
  List.argmin_mem (leastCount?_eq_argmin counts ▸ h)

theorem leastCount?_le {entry other : Nat × Nat} (h : leastCount? counts = some entry)
    (hother : other ∈ counts) : entry.2 ≤ other.2 :=
  List.le_of_mem_argmin hother (leastCount?_eq_argmin counts ▸ h)

/-- Of equal counts the one of the lowest row is taken. -/
theorem leastCount?_lowest {entry other : Nat × Nat}
    (hsorted : (counts.map Prod.fst).Pairwise (· < ·)) (h : leastCount? counts = some entry)
    (hother : other ∈ counts) (hle : other.2 ≤ entry.2) : entry.1 ≤ other.1 := by
  rw [leastCount?_eq_argmin] at h
  induction counts with
  | nil => contradiction
  | cons first rest ih =>
    obtain ⟨hfirst, hrest⟩ := List.pairwise_cons.mp hsorted
    rw [List.argmin_cons] at h
    cases hbest : rest.argmin Prod.snd with
    | none =>
      simp only [hbest, Option.some.injEq] at h
      obtain rfl := List.argmin_eq_none.mp hbest
      rw [List.mem_singleton.mp hother, h]
    | some best =>
      simp only [hbest] at h
      split at h <;> obtain rfl := Option.some.inj h
      · rcases List.mem_cons.mp hother with rfl | hmem
        · omega
        · exact ih hrest hbest hmem
      · rcases List.mem_cons.mp hother with rfl | hmem
        · exact le_rfl
        · exact (hfirst _ (List.mem_map_of_mem hmem)).le

theorem leastCount?_eq_none (h : leastCount? counts = none) : counts = [] :=
  List.argmin_eq_none.mp (leastCount?_eq_argmin counts ▸ h)

/-- The first zero of a row in a free column is found by a search along row and slots. -/
theorem firstFree_eq {flags : List Bool} {slots : List (Option Nat)}
    (h : slots.length ≤ flags.length) :
    firstFree flags slots =
      .ok ((flags.zip slots).findIdx? fun entry => entry.1 && entry.2.isNone) := by
  induction slots generalizing flags with
  | nil => cases flags <;> simp [firstFree]
  | cons slot slots ih =>
    cases flags with
    | nil => simp at h
    | cons zero flags =>
      rw [firstFree, ih (by simpa using h), List.zip_cons_cons, List.findIdx?_cons]
      split <;> rfl

/-! ### Free zeros -/

/-- The free columns in which a row has a zero. -/
def freeZeros (n : Nat) (mask : Grid Bool) (m : Matching Nat) (row : Nat) : Finset Nat :=
  {col ∈ Finset.range n | mask.cell? row col = some true ∧ m.row? col = none}

theorem mem_freeZeros_iff (hmask : mask.IsSquare n) :
    col ∈ freeZeros n mask m row ↔ mask.cell? row col = some true ∧ m.row? col = none := by
  simp only [freeZeros, Finset.mem_filter, Finset.mem_range, and_iff_right_iff_imp]
  exact fun h => (hmask.lt_of_cell? h.1).2

theorem exists_firstFree (hmask : mask.IsSquare n) (hm : m.Paired n) (hr : row < n)
    (hne : (freeZeros n mask m row).Nonempty) :
    ∃ col ∈ freeZeros n mask m row, (∀ other ∈ freeZeros n mask m row, col ≤ other) ∧
      firstFree (mask[row]?.getD []) m.rowOfCol = .ok (some col) := by
  obtain ⟨flags, hflags, hlen⟩ := hmask.exists_row hr
  have hcell : ∀ col, mask.cell? row col = flags[col]? := by
    intro col
    simp [Grid.cell?, hflags]
  rw [hflags, Option.getD_some, firstFree_eq (by rw [hm.length_rows, hlen])]
  have hzip : ∀ col ∈ freeZeros n mask m row, (flags.zip m.rowOfCol)[col]? = some (true, none) := by
    intro col hcol
    rw [mem_freeZeros_iff hmask, hcell] at hcol
    have hcn : col < m.rowOfCol.length := by
      rw [hm.length_rows, ← hlen]
      exact (List.getElem?_eq_some_iff.mp hcol.1).1
    exact List.getElem?_zip_eq_some.mpr ⟨hcol.1, (getElem?_of_lt hcn).trans (congrArg some hcol.2)⟩
  cases hfound : (flags.zip m.rowOfCol).findIdx? fun entry => entry.1 && entry.2.isNone with
  | none =>
    obtain ⟨col, hcol⟩ := hne
    have := List.findIdx?_eq_none_iff.mp hfound _ (List.mem_of_getElem? (hzip col hcol))
    simp at this
  | some first =>
    obtain ⟨hlt, htrue, hbefore⟩ := List.findIdx?_eq_some_iff_getElem.mp hfound
    have hentry := List.getElem?_zip_eq_some.mp (List.getElem?_eq_getElem hlt)
    rw [Bool.and_eq_true, Option.isNone_iff_eq_none] at htrue
    refine ⟨first, (mem_freeZeros_iff hmask).mpr ⟨?_, ?_⟩, ?_, rfl⟩
    · rw [hcell, hentry.1, htrue.1]
    · rw [row?, content, hentry.2, htrue.2]
      rfl
    · intro other hother
      by_contra hle
      obtain ⟨hlen', hget⟩ := List.getElem?_eq_some_iff.mp (hzip other hother)
      have := hbefore other (not_le.mp hle)
      simp [hget] at this

theorem freeZeros_select {m' : Matching Nat} (hm : m.Paired n) (hm' : m'.Paired n)
    (hs : ∀ row', m'.col? row' = if row' = row then some col else m.col? row')
    (hcol : m.col? row = none) (other : Nat) :
    freeZeros n mask m' other = (freeZeros n mask m other).erase col := by
  have hfree : ∀ col', m'.row? col' = none ↔ col' ≠ col ∧ m.row? col' = none := by
    intro col'
    rw [Option.eq_none_iff_forall_ne_some, Option.eq_none_iff_forall_ne_some]
    constructor
    · intro h
      refine ⟨fun hc => h row ((hm'.inverse row col').mp (by rw [hs, if_pos rfl, hc])), ?_⟩
      intro row' hr
      have hc := (hm.inverse row' col').mpr hr
      have hne : row' ≠ row := fun he => by simp [he ▸ hcol] at hc
      exact h row' ((hm'.inverse row' col').mp (by rw [hs, if_neg hne, hc]))
    · rintro ⟨hne, h⟩ row' hr
      have hc := (hm'.inverse row' col').mpr hr
      rw [hs] at hc
      split at hc
      · exact hne (Option.some.inj hc).symm
      · exact h row' ((hm.inverse row' col').mp hc)
  ext col'
  simp only [freeZeros, Finset.mem_filter, Finset.mem_erase, hfree]
  tauto

/-! ### The counts -/

/-- The state of a selection between two choices: the counts are those of the free zeros, and every
unselected row with a free zero has one. -/
structure Serving (n : Nat) (mask : Grid Bool) (m : Matching Nat) (counts : Counts) : Prop where
  paired : m.Paired n
  zero : ∀ row col, m.col? row = some col → mask.cell? row col = some true
  nodup : (counts.map Prod.fst).Nodup
  unmatched : ∀ row count, (row, count) ∈ counts → row < n ∧ m.col? row = none
  count_eq : ∀ row count, (row, count) ∈ counts → count = (freeZeros n mask m row).card
  count_pos : ∀ row count, (row, count) ∈ counts → 0 < count
  counted : ∀ row < n, m.col? row = none → (freeZeros n mask m row).Nonempty →
    row ∈ counts.map Prod.fst

theorem map_fst_discount_sublist (row col : Nat) (counts : Counts) :
    ((discount mask row col counts).map Prod.fst).Sublist (counts.map Prod.fst) := by
  refine map_filterMap_sublist ?_ _
  rintro ⟨other, k⟩ kept he
  dsimp only at he
  split_ifs at he <;> exact (congrArg Prod.fst (Option.some.inj he)).symm

theorem length_discount_lt (h : (row, count) ∈ counts) (col : Nat) :
    (discount mask row col counts).length < counts.length :=
  List.length_filterMap_lt_length_iff_exists.mpr ⟨(row, count), h, by simp⟩

/-- A count stays as long as it is positive; it loses one if its row has a zero in the column. -/
theorem mem_discount_iff (hpos : ∀ row count, (row, count) ∈ counts → 0 < count)
    {other k : Nat} :
    (other, k) ∈ discount mask row col counts ↔
      other ≠ row ∧ 0 < k ∧
        (other, k + if mask.cell? other col = some true then 1 else 0) ∈ counts := by
  have hbit : (mask.cell? other col).getD false = true ↔ mask.cell? other col = some true := by
    cases mask.cell? other col <;> simp
  rw [discount, List.mem_filterMap]
  constructor
  · rintro ⟨⟨other', k'⟩, hmem, he⟩
    have hk := hpos other' k' hmem
    dsimp only at he
    split_ifs at he with h1 h2 h3
    · obtain ⟨rfl, rfl⟩ := Prod.mk.inj (Option.some.inj he)
      rw [if_pos (hbit.mp h2), Nat.sub_add_cancel hk]
      exact ⟨h1, by omega, hmem⟩
    · obtain ⟨rfl, rfl⟩ := Prod.mk.inj (Option.some.inj he)
      rw [if_neg fun h => h2 (hbit.mpr h)]
      exact ⟨h1, hk, hmem⟩
  · rintro ⟨hne, hk, hmem⟩
    refine ⟨_, hmem, ?_⟩
    by_cases hb : mask.cell? other col = some true
    · have hk' : k ≠ 0 := by omega
      simp [hne, hb, hk']
    · simp [hne, hb, mt hbit.mp hb]

/-- Serving a row with one of its free zeros keeps the account. -/
theorem Serving.step (hmask : mask.IsSquare n) (h : Serving n mask m counts)
    (hrow : (row, count) ∈ counts) (hcol : col ∈ freeZeros n mask m row) :
    ∃ m', m.select row col = .ok m' ∧ m'.markOfRow = m.markOfRow ∧
      (∀ row', m'.col? row' = if row' = row then some col else m.col? row') ∧
      Serving n mask m' (discount mask row col counts) := by
  obtain ⟨hcell, hfree⟩ := (mem_freeZeros_iff hmask).mp hcol
  obtain ⟨hrn, hcn⟩ := hmask.lt_of_cell? hcell
  have hunm := (h.unmatched row count hrow).2
  obtain ⟨m', hsel, hp, hmarks, hs⟩ := h.paired.select hrn hcn hunm hfree
  have herase : ∀ other, freeZeros n mask m' other = (freeZeros n mask m other).erase col :=
    freeZeros_select h.paired hp hs hunm
  have hkept : ∀ other, other ≠ row → m'.col? other = m.col? other := by
    intro other hne
    rw [hs, if_neg hne]
  -- a row with a zero in the chosen column loses exactly that zero
  have hcard : ∀ other, (freeZeros n mask m other).card =
      (freeZeros n mask m' other).card + if mask.cell? other col = some true then 1 else 0 := by
    intro other
    rw [herase]
    split_ifs with hb
    · rw [Finset.card_erase_add_one ((mem_freeZeros_iff hmask).mpr ⟨hb, hfree⟩)]
    · rw [Finset.erase_eq_of_notMem fun hmem => hb ((mem_freeZeros_iff hmask).mp hmem).1, add_zero]
  have hnodup : ((discount mask row col counts).map Prod.fst).Nodup :=
    h.nodup.sublist (map_fst_discount_sublist row col counts)
  refine ⟨m', hsel, hmarks, hs, hp, ?_, hnodup, ?_, ?_, ?_, ?_⟩
  · intro row' col' hc
    rw [hs] at hc
    split at hc
    · rename_i he
      rw [he, ← Option.some.inj hc]
      exact hcell
    · exact h.zero row' col' hc
  · intro other k hmem
    obtain ⟨hne, -, hold⟩ := (mem_discount_iff h.count_pos).mp hmem
    rw [hkept other hne]
    exact h.unmatched other _ hold
  · intro other k hmem
    obtain ⟨-, -, hold⟩ := (mem_discount_iff h.count_pos).mp hmem
    have := h.count_eq other _ hold
    rw [hcard] at this
    omega
  · intro other k hmem
    exact ((mem_discount_iff h.count_pos).mp hmem).2.1
  · intro other hon hunm' hne'
    have hne : other ≠ row := by
      rintro rfl
      rw [hs, if_pos rfl] at hunm'
      contradiction
    rw [hkept other hne] at hunm'
    have hold : (freeZeros n mask m other).Nonempty := by
      rw [herase] at hne'
      exact hne'.mono (Finset.erase_subset _ _)
    obtain ⟨⟨other', k⟩, hmem, rfl⟩ := List.mem_map.mp (h.counted other hon hunm' hold)
    refine List.mem_map.mpr ⟨(other', (freeZeros n mask m' other').card), ?_, rfl⟩
    rw [mem_discount_iff h.count_pos, ← hcard, ← h.count_eq other' k hmem]
    exact ⟨hne, Finset.card_pos.mpr hne', hmem⟩

/-! ### The whole selection -/

/-- One row served: the first of those with the least count takes its first free zero. -/
theorem Serving.serve_succ (hmask : mask.IsSquare n) (h : Serving n mask m counts)
    (hleast : leastCount? counts = some (row, count)) :
    ∃ col m', col ∈ freeZeros n mask m row ∧ (∀ other ∈ freeZeros n mask m row, col ≤ other) ∧
      m'.markOfRow = m.markOfRow ∧
      (∀ row', m'.col? row' = if row' = row then some col else m.col? row') ∧
      Serving n mask m' (discount mask row col counts) ∧
      ∀ fuel, serve mask (fuel + 1) counts m =
        { serve mask fuel (discount mask row col counts) m' with
          chosen := (row, col) :: (serve mask fuel (discount mask row col counts) m').chosen } := by
  have hmem := leastCount?_mem hleast
  have hpos := h.count_pos row count hmem
  have hne : (freeZeros n mask m row).Nonempty := by
    rw [← Finset.card_pos, ← h.count_eq row count hmem]
    exact hpos
  obtain ⟨col, hcol, hlow, hfirst⟩ :=
    exists_firstFree hmask h.paired (h.unmatched row count hmem).1 hne
  obtain ⟨m', hsel, hmarks, hs, hserving⟩ := h.step hmask hmem hcol
  refine ⟨col, m', hcol, hlow, hmarks, hs, hserving, fun fuel => ?_⟩
  simp only [serve, hleast, Nat.ne_of_gt hpos, ↓reduceIte, hfirst, Position.ofNat_nat, hsel]

theorem serve_spec (hmask : mask.IsSquare n) {fuel : Nat} (hfuel : counts.length ≤ fuel)
    (h : Serving n mask m counts) :
    (serve mask fuel counts m).fault = none ∧
      (serve mask fuel counts m).matching.markOfRow = m.markOfRow ∧
      Serving n mask (serve mask fuel counts m).matching [] := by
  -- each row served leaves the account, so its length bounds the fuel needed
  induction fuel generalizing counts m with
  | zero =>
    obtain rfl := List.length_eq_zero_iff.mp (Nat.le_zero.mp hfuel)
    exact ⟨rfl, rfl, h⟩
  | succ fuel ih =>
    cases hleast : leastCount? counts with
    | none =>
      obtain rfl := leastCount?_eq_none hleast
      exact ⟨rfl, rfl, h⟩
    | some entry =>
      obtain ⟨row, count⟩ := entry
      obtain ⟨col, m', -, -, hmarks, -, hserving, hserve⟩ := h.serve_succ hmask hleast
      have hlen : (discount mask row col counts).length < counts.length :=
        length_discount_lt (leastCount?_mem hleast) col
      obtain ⟨hfault, hmarks', hlast⟩ := ih (by omega) hserving
      rw [hserve]
      exact ⟨hfault, hmarks'.trans hmarks, hlast⟩

theorem mem_initialCounts_iff :
    (row, count) ∈ initialCounts mask ↔
      ∃ flags, mask[row]? = some flags ∧ flags.count true = count := by
  rw [initialCounts, List.mem_map]
  constructor
  · rintro ⟨⟨flags, i⟩, hmem, he⟩
    obtain ⟨rfl, rfl⟩ := Prod.mk.inj he
    exact ⟨flags, List.mk_mem_zipIdx_iff_getElem?.mp hmem, rfl⟩
  · rintro ⟨flags, hflags, rfl⟩
    exact ⟨(flags, row), List.mk_mem_zipIdx_iff_getElem?.mpr hflags, rfl⟩

theorem map_fst_initialCounts (mask : Grid Bool) :
    (initialCounts mask).map Prod.fst = List.range' 0 mask.length := by
  rw [initialCounts, List.map_map, ← List.zipIdx_map_snd]
  rfl

theorem pairwise_initialCounts (mask : Grid Bool) :
    ((initialCounts mask).map Prod.fst).Pairwise (· < ·) := by
  rw [map_fst_initialCounts]
  exact List.pairwise_lt_range'

theorem card_freeZeros_clearSelected (hmask : mask.IsSquare n) {flags : List Bool}
    (hflags : mask[row]? = some flags) :
    (freeZeros n mask (m.clearSelected n) row).card = flags.count true := by
  rw [count_true_eq_card, hmask.row_length hflags, freeZeros]
  congr 1
  ext col
  simp [Grid.cell?, hflags, row?_clearSelected]

theorem serving_initial (hmask : mask.IsSquare n) (hm : m.Paired n)
    (hrows : ∀ row < n, ∃ col, mask.cell? row col = some true) :
    Serving n mask (m.clearSelected n) (initialCounts mask) where
  paired := hm.clearSelected
  zero row col h := by simp [col?_clearSelected] at h
  nodup := (pairwise_initialCounts mask).imp ne_of_lt
  unmatched row count h := by
    obtain ⟨flags, hflags, -⟩ := mem_initialCounts_iff.mp h
    have hlt := (List.getElem?_eq_some_iff.mp hflags).1
    rw [hmask.1] at hlt
    exact ⟨hlt, col?_clearSelected m n row⟩
  count_eq row count h := by
    obtain ⟨flags, hflags, rfl⟩ := mem_initialCounts_iff.mp h
    exact (card_freeZeros_clearSelected hmask hflags).symm
  count_pos row count h := by
    obtain ⟨flags, hflags, rfl⟩ := mem_initialCounts_iff.mp h
    have hlt := (List.getElem?_eq_some_iff.mp hflags).1
    rw [hmask.1] at hlt
    obtain ⟨col, hcol⟩ := hrows row hlt
    rw [← card_freeZeros_clearSelected (m := m) hmask hflags, Finset.card_pos]
    exact ⟨col, (mem_freeZeros_iff hmask).mpr ⟨hcol, row?_clearSelected m n col⟩⟩
  counted row hrow _ _ := by
    rw [map_fst_initialCounts, List.mem_range'_1, hmask.1]
    omega

/-- On a mask with a zero in every row, the greedy selection ends without a fault in a matching of
zeros of the mask; the prepared zeros stay. -/
theorem run_spec (hmask : mask.IsSquare n) (hm : m.Paired n)
    (hrows : ∀ row < n, ∃ col, mask.cell? row col = some true) :
    (run mask m).fault = none ∧ (run mask m).matching.markOfRow = m.markOfRow ∧
      Serving n mask (run mask m).matching [] := by
  have hlen : (initialCounts mask).length ≤ mask.length := by simp [initialCounts]
  rw [run, hmask.1] at *
  exact serve_spec hmask hlen (serving_initial hmask hm hrows)

/-- On a mask with a row without zeros, the greedy selection ends at once at the lowest of them. -/
theorem run_exhausted (hmask : mask.IsSquare n) (hrow : row < n)
    (hnone : ∀ col, mask.cell? row col ≠ some true) (m : Matching Nat) :
    ∃ lowest < n, (∀ col, mask.cell? lowest col ≠ some true) ∧
      (∀ other < lowest, ∃ col, mask.cell? other col = some true) ∧
      run mask m = ⟨[], m.clearSelected n, some (.rowExhausted lowest)⟩ := by
  have hzero : ∀ other < n, (∀ col, mask.cell? other col ≠ some true) →
      (other, 0) ∈ initialCounts mask := by
    intro other hother hnone
    obtain ⟨flags, hflags, -⟩ := hmask.exists_row hother
    refine mem_initialCounts_iff.mpr ⟨flags, hflags, List.count_eq_zero.mpr fun hmem => ?_⟩
    obtain ⟨col, hcol⟩ := List.mem_iff_getElem?.mp hmem
    exact hnone col (Grid.cell?_eq_some_iff.mpr ⟨flags, hflags, hcol⟩)
  obtain ⟨fuel, hfuel⟩ : ∃ fuel, n = fuel + 1 := Nat.exists_eq_succ_of_ne_zero (by omega)
  cases hleast : leastCount? (initialCounts mask) with
  | none =>
    have hmem := hzero row hrow hnone
    rw [leastCount?_eq_none hleast] at hmem
    contradiction
  | some entry =>
    obtain ⟨lowest, count⟩ := entry
    obtain rfl : count = 0 := Nat.le_zero.mp (leastCount?_le hleast (hzero row hrow hnone))
    obtain ⟨flags, hflags, hcount⟩ := mem_initialCounts_iff.mp (leastCount?_mem hleast)
    have hlt : lowest < n := by
      rw [← hmask.1]
      exact (List.getElem?_eq_some_iff.mp hflags).1
    refine ⟨lowest, hlt, ?_, ?_, by simp [run, hmask.1, hfuel, serve, hleast]⟩
    · intro col hcol
      obtain ⟨flags', hflags', htrue⟩ := Grid.cell?_eq_some_iff.mp hcol
      obtain rfl := Option.some.inj (hflags.symm.trans hflags')
      exact List.count_eq_zero.mp hcount (List.mem_of_getElem? htrue)
    · intro other hother
      by_contra hall
      have hmem := hzero other (hother.trans hlt) (not_exists.mp hall)
      have hle := leastCount?_lowest (pairwise_initialCounts mask) hleast hmem le_rfl
      exact absurd hother hle.not_gt

/-- However the greedy selection ends, the two records of what it leaves behind agree. -/
theorem paired_run (hmask : mask.IsSquare n) (hm : m.Paired n) :
    (run mask m).matching.Paired n ∧ (run mask m).matching.markOfRow = m.markOfRow := by
  by_cases hrows : ∀ row < n, ∃ col, mask.cell? row col = some true
  · obtain ⟨-, hmarks, hserving⟩ := run_spec hmask hm hrows
    exact ⟨hserving.paired, hmarks⟩
  · push Not at hrows
    obtain ⟨row, hrow, hnone⟩ := hrows
    obtain ⟨_, -, -, -, hrun⟩ := run_exhausted hmask hrow hnone m
    rw [hrun]
    exact ⟨hm.clearSelected, rfl⟩

end OptimalAssignment.Greedy
