import OptimalAssignment.Proofs.Matching.Selection

/-!
The selection that counts afresh. Before each choice it counts the zeros that every unselected row
has in free columns; of the rows that have any it serves one with the fewest, the lowest of equals,
with its first such zero. The greedy selection keeps its counts instead and only takes away what a
choice costs, yet it makes the same choices in the same order.
-/
namespace OptimalAssignment.Greedy

open Matching

variable {n row col count : Nat} {mask : Grid Bool} {counts : Counts} {m : Matching Nat}
variable {taken : List (Nat × Nat)} {cell : Nat × Nat}

/-- The rows in which no cell is taken, in ascending order. -/
def openRows (n : Nat) (taken : List (Nat × Nat)) : List Nat :=
  (List.range n).filter fun row => row ∉ taken.map Prod.fst

/-- The columns in which a row has a zero and no cell is taken, in ascending order. -/
def openZeros (n : Nat) (mask : Grid Bool) (taken : List (Nat × Nat)) (row : Nat) : List Nat :=
  (List.range n).filter fun col => mask.cell? row col = some true ∧ col ∉ taken.map Prod.snd

/-- The open rows with the number of their open zeros, as far as they have any. -/
def recount (n : Nat) (mask : Grid Bool) (taken : List (Nat × Nat)) : Counts :=
  ((openRows n taken).map fun row => (row, (openZeros n mask taken row).length)).filter
    fun entry => 0 < entry.2

/-- The first open zero of the first row with the fewest. -/
def nextCell? (n : Nat) (mask : Grid Bool) (taken : List (Nat × Nat)) : Option (Nat × Nat) :=
  ((recount n mask taken).argmin Prod.snd).bind fun entry =>
    (openZeros n mask taken entry.1).head?.map (entry.1, ·)

theorem mem_openRows_iff : row ∈ openRows n taken ↔ row < n ∧ row ∉ taken.map Prod.fst := by
  simp only [openRows, List.mem_filter, List.mem_range, decide_eq_true_eq]

theorem mem_openZeros_iff (hmask : mask.IsSquare n) :
    col ∈ openZeros n mask taken row ↔
      mask.cell? row col = some true ∧ col ∉ taken.map Prod.snd := by
  simp only [openZeros, List.mem_filter, List.mem_range, decide_eq_true_eq, and_iff_right_iff_imp]
  exact fun h => (hmask.lt_of_cell? h.1).2

theorem mem_recount_iff :
    (row, count) ∈ recount n mask taken ↔
      row ∈ openRows n taken ∧ (openZeros n mask taken row).length = count ∧ 0 < count := by
  simp only [recount, List.mem_filter, List.mem_map, Prod.mk.injEq, decide_eq_true_eq]
  constructor
  · rintro ⟨⟨row', hrow, rfl, hcount⟩, hpos⟩
    exact ⟨hrow, hcount, hpos⟩
  · rintro ⟨hrow, hcount, hpos⟩
    exact ⟨⟨row, hrow, rfl, hcount⟩, hpos⟩

theorem nextCell?_mem (h : nextCell? n mask taken = some cell) : cell.1 ∈ openRows n taken := by
  obtain ⟨⟨row, count⟩, hbest, hcell⟩ := Option.bind_eq_some_iff.mp h
  obtain ⟨col, -, rfl⟩ := Option.map_eq_some_iff.mp hcell
  exact (mem_recount_iff.mp (List.argmin_mem hbest)).1

theorem length_openRows_lt (h : nextCell? n mask taken = some cell) :
    (openRows n (cell :: taken)).length < (openRows n taken).length := by
  have hfilter : openRows n (cell :: taken) = (openRows n taken).filter (· ≠ cell.1) := by
    simp only [openRows, List.filter_filter]
    refine List.filter_congr fun row _ => Bool.eq_iff_iff.mpr ?_
    simp [and_comm, not_or]
  rw [hfilter, List.length_filter_lt_length_iff_exists]
  exact ⟨cell.1, nextCell?_mem h, by simp⟩

/-- The cells still to be taken, in order, if some are taken already. -/
def recounted (n : Nat) (mask : Grid Bool) (taken : List (Nat × Nat)) : List (Nat × Nat) :=
  match h : nextCell? n mask taken with
  | none => []
  | some cell =>
    have := length_openRows_lt h
    cell :: recounted n mask (cell :: taken)
termination_by (openRows n taken).length

theorem recounted_of_none (h : nextCell? n mask taken = none) : recounted n mask taken = [] := by
  rw [recounted]
  split <;> simp_all

theorem recounted_of_some (h : nextCell? n mask taken = some cell) :
    recounted n mask taken = cell :: recounted n mask (cell :: taken) := by
  rw [recounted]
  split <;> simp_all

/-! ### Counts kept and counts made afresh -/

/-- The cells taken are the selected zeros of a matching. -/
def Holding (taken : List (Nat × Nat)) (m : Matching Nat) : Prop :=
  ∀ row col, m.col? row = some col ↔ (row, col) ∈ taken

section Holding

variable (hm : m.Paired n) (ht : Holding taken m)
include ht

theorem Holding.notMem_rows_iff : row ∉ taken.map Prod.fst ↔ m.col? row = none := by
  simp [Option.eq_none_iff_forall_ne_some, ← ht row]

include hm

theorem Holding.notMem_cols_iff : col ∉ taken.map Prod.snd ↔ m.row? col = none := by
  simp [Option.eq_none_iff_forall_ne_some, ← hm.inverse, ← ht _ col]

theorem Holding.mem_openZeros_iff (hmask : mask.IsSquare n) :
    col ∈ openZeros n mask taken row ↔ col ∈ freeZeros n mask m row := by
  rw [Greedy.mem_openZeros_iff hmask, mem_freeZeros_iff hmask, ht.notMem_cols_iff hm]

theorem Holding.length_openZeros (hmask : mask.IsSquare n) :
    (openZeros n mask taken row).length = (freeZeros n mask m row).card := by
  have hnodup : (openZeros n mask taken row).Nodup := List.nodup_range.filter _
  rw [← List.toFinset_card_of_nodup hnodup]
  congr 1
  ext col
  rw [List.mem_toFinset, ht.mem_openZeros_iff hm hmask]

end Holding

/-- Counts in ascending order of their rows that have the same members are the same. -/
theorem counts_ext {counts' : Counts} (hsorted : (counts.map Prod.fst).Pairwise (· < ·))
    (hsorted' : (counts'.map Prod.fst).Pairwise (· < ·))
    (h : ∀ entry, entry ∈ counts ↔ entry ∈ counts') : counts = counts' := by
  have hnodup : ∀ {counts : Counts}, (counts.map Prod.fst).Pairwise (· < ·) → counts.Nodup :=
    fun hsorted => List.Nodup.of_map _ (hsorted.imp ne_of_lt)
  have hperm := (List.perm_ext_iff_of_nodup (hnodup hsorted) (hnodup hsorted')).mpr h
  rw [List.pairwise_map] at hsorted hsorted'
  exact hperm.eq_of_pairwise (fun a b _ _ hab hba => absurd hab hba.asymm) hsorted hsorted'

theorem pairwise_recount (n : Nat) (mask : Grid Bool) (taken : List (Nat × Nat)) :
    ((recount n mask taken).map Prod.fst).Pairwise (· < ·) := by
  have hrows : (openRows n taken).Pairwise (· < ·) := List.pairwise_lt_range.filter _
  have hentries : ((openRows n taken).map fun row =>
      (row, (openZeros n mask taken row).length)).Pairwise fun a b => a.1 < b.1 :=
    List.pairwise_map.mpr hrows
  exact List.pairwise_map.mpr (hentries.filter _)

/-- The counts kept while rows are served are those of a recount. -/
theorem Serving.eq_recount (hmask : mask.IsSquare n) (h : Serving n mask m counts)
    (hsorted : (counts.map Prod.fst).Pairwise (· < ·)) (ht : Holding taken m) :
    counts = recount n mask taken := by
  refine counts_ext hsorted (pairwise_recount n mask taken) fun ⟨row, count⟩ => ?_
  rw [mem_recount_iff, mem_openRows_iff, ht.notMem_rows_iff, ht.length_openZeros h.paired hmask]
  constructor
  · intro hmem
    exact ⟨h.unmatched row count hmem, (h.count_eq row count hmem).symm, h.count_pos row count hmem⟩
  · rintro ⟨⟨hrow, hfree⟩, rfl, hpos⟩
    obtain ⟨⟨row', count⟩, hmem, rfl⟩ :=
      List.mem_map.mp (h.counted row hrow hfree (Finset.card_pos.mp hpos))
    rwa [← h.count_eq row' count hmem]

theorem Serving.recounted_eq_nil (hmask : mask.IsSquare n) (h : Serving n mask m [])
    (ht : Holding taken m) : recounted n mask taken = [] := by
  refine recounted_of_none ?_
  rw [nextCell?, ← h.eq_recount hmask List.Pairwise.nil ht, List.argmin_nil, Option.bind_none]

theorem Serving.nextCell?_eq (hmask : mask.IsSquare n) (h : Serving n mask m counts)
    (hsorted : (counts.map Prod.fst).Pairwise (· < ·)) (ht : Holding taken m)
    (hleast : leastCount? counts = some (row, count)) (hcol : col ∈ freeZeros n mask m row)
    (hlow : ∀ other ∈ freeZeros n mask m row, col ≤ other) :
    nextCell? n mask taken = some (row, col) := by
  have hopen : ∀ other, other ∈ openZeros n mask taken row ↔ other ∈ freeZeros n mask m row :=
    fun other => ht.mem_openZeros_iff h.paired hmask
  have hhead : (openZeros n mask taken row).head? = some col := by
    have hzeros : (openZeros n mask taken row).Pairwise (· < ·) := List.pairwise_lt_range.filter _
    cases hfirst : openZeros n mask taken row with
    | nil => simpa [hfirst] using (hopen col).mpr hcol
    | cons first rest =>
      rw [hfirst] at hopen hzeros
      have hle := hlow first ((hopen first).mp List.mem_cons_self)
      rcases List.mem_cons.mp ((hopen col).mpr hcol) with rfl | hmem
      · rfl
      · exact absurd ((List.pairwise_cons.mp hzeros).1 col hmem) hle.not_gt
  rw [nextCell?, ← h.eq_recount hmask hsorted ht, ← leastCount?_eq_argmin, hleast,
    Option.bind_some, hhead, Option.map_some]

/-! ### The same choices -/

theorem Holding.cons {m' : Matching Nat} (ht : Holding taken m) (hfree : m.col? row = none)
    (hs : ∀ row', m'.col? row' = if row' = row then some col else m.col? row') :
    Holding ((row, col) :: taken) m' := by
  intro row' col'
  rw [hs, List.mem_cons, Prod.mk.injEq, ← ht]
  split_ifs with he
  · simp [he, hfree, eq_comm]
  · simp [he]

/-- Step by step the two selections choose the same cell. -/
theorem serve_recounted (hmask : mask.IsSquare n) {fuel : Nat} (hfuel : counts.length ≤ fuel)
    (h : Serving n mask m counts) (hsorted : (counts.map Prod.fst).Pairwise (· < ·))
    (ht : Holding taken m) :
    (serve mask fuel counts m).chosen = recounted n mask taken ∧
      ∀ row col, (serve mask fuel counts m).matching.col? row = some col ↔
        (row, col) ∈ taken ∨ (row, col) ∈ recounted n mask taken := by
  induction fuel generalizing counts m taken with
  | zero =>
    obtain rfl := List.length_eq_zero_iff.mp (Nat.le_zero.mp hfuel)
    rw [h.recounted_eq_nil hmask ht]
    exact ⟨rfl, fun row col => (ht row col).trans (by simp)⟩
  | succ fuel ih =>
    cases hleast : leastCount? counts with
    | none =>
      obtain rfl := leastCount?_eq_none hleast
      rw [h.recounted_eq_nil hmask ht]
      exact ⟨rfl, fun row col => (ht row col).trans (by simp)⟩
    | some entry =>
      obtain ⟨row, count⟩ := entry
      have hmem := leastCount?_mem hleast
      obtain ⟨col, m', hcol, hlow, -, hs, hserving, hserve⟩ := h.serve_succ hmask hleast
      have hlen : (discount mask row col counts).length < counts.length :=
        length_discount_lt hmem col
      have hsorted' : ((discount mask row col counts).map Prod.fst).Pairwise (· < ·) :=
        hsorted.sublist (map_fst_discount_sublist row col counts)
      have ht' : Holding ((row, col) :: taken) m' := ht.cons (h.unmatched row count hmem).2 hs
      obtain ⟨hchosen, hlast⟩ := ih (by omega) hserving hsorted' ht'
      rw [hserve, recounted_of_some (h.nextCell?_eq hmask hsorted ht hleast hcol hlow)]
      refine ⟨congrArg _ hchosen, fun row' col' => (hlast row' col').trans ?_⟩
      simp only [List.mem_cons]
      tauto

/-- On a mask with a zero in every row, the greedy selection takes the cells that counting afresh
before each choice would take, in the same order, whatever was selected before. -/
theorem run_recounted (hmask : mask.IsSquare n)
    (hrows : ∀ row < n, ∃ col < n, mask.cell? row col = some true) (m : Matching Nat) :
    (run mask m).fault = none ∧ (run mask m).chosen = recounted n mask [] ∧
      (∀ row col, (run mask m).matching.col? row = some col ↔
        (row, col) ∈ recounted n mask []) ∧
      ∀ row col, (run mask m).matching.row? col = some row ↔ (row, col) ∈ recounted n mask [] := by
  have hzeros : ∀ row < n, ∃ col, mask.cell? row col = some true :=
    fun row hrow => (hrows row hrow).imp fun _ hcol => hcol.2
  obtain ⟨hfault, -, hserving⟩ := run_spec hmask (paired_empty n) hzeros
  have hinitial := serving_initial hmask (paired_empty n) hzeros
  have hholding : Holding [] ((empty Nat n).clearSelected n) := fun row col => by simp
  have hlen : (initialCounts mask).length ≤ mask.length := by simp [initialCounts]
  have hrun : run mask (empty Nat n) =
      serve mask mask.length (initialCounts mask) ((empty Nat n).clearSelected n) := by
    rw [run, hmask.1]
  obtain ⟨hchosen, hcells⟩ :=
    serve_recounted hmask hlen hinitial (pairwise_initialCounts mask) hholding
  rw [← hrun] at hchosen hcells
  have hcols : ∀ row col, (run mask (empty Nat n)).matching.col? row = some col ↔
      (row, col) ∈ recounted n mask [] := by simpa using hcells
  have hinverse := hserving.paired.inverse
  rw [run_reframed n mask m]
  exact ⟨hfault, hchosen, hcols, fun row col => (hinverse row col).symm.trans (hcols row col)⟩

theorem run_recounted_four :
    Grid.IsSquare 4 [[false, true, false, true], [true, true, false, false],
        [true, true, false, false], [false, true, true, false]] ∧
      (∀ row < 4, ∃ col < 4, Grid.cell? [[false, true, false, true], [true, true, false, false],
        [true, true, false, false], [false, true, true, false]] row col = some true) ∧
      recounted 4 [[false, true, false, true], [true, true, false, false],
        [true, true, false, false], [false, true, true, false]] [] = [(0, 1), (1, 0), (3, 2)] := by
  have hsquare : Grid.IsSquare 4 [[false, true, false, true], [true, true, false, false],
    [true, true, false, false], [false, true, true, false]] := by decide
  have hrows : ∀ row < 4, ∃ col < 4, Grid.cell? [[false, true, false, true],
    [true, true, false, false], [true, true, false, false], [false, true, true, false]] row col =
      some true := by decide
  obtain ⟨-, hchosen, -, -⟩ := run_recounted hsquare hrows (empty Nat 4)
  exact ⟨hsquare, hrows, hchosen.symm⟩

end OptimalAssignment.Greedy
