import OptimalAssignment.Proofs.Matching.Walk

/-!
Flipping the path along a chain. Its selected cells are unselected one by one, which frees exactly
the lines that its prepared cells need; so every step succeeds, and the matching becomes the
symmetric difference with the path. It gains the row at the start and the column at the end, and no
line is lost.
-/
namespace OptimalAssignment.Matching

variable {n row col last : Nat} {m : Matching Nat} {cells prepared selected : List (Cell Nat)}

theorem along_unselect (hm : m.Paired n) (hs : ∀ cell ∈ cells, m.col? cell.1 = some cell.2)
    (hrows : (cells.map Prod.fst).Nodup) :
    ∃ m', AlternatingPath.along Matching.unselect cells m = (m', none) ∧ m'.Paired n ∧
      m'.markOfRow = m.markOfRow ∧
      ∀ row, m'.col? row = if row ∈ cells.map Prod.fst then none else m.col? row := by
  induction cells generalizing m with
  | nil => exact ⟨m, rfl, hm, rfl, fun row => by simp⟩
  | cons cell cells ih =>
    obtain ⟨row, col⟩ := cell
    obtain ⟨hrow, hrest⟩ := List.nodup_cons.mp hrows
    obtain ⟨m₁, hun, hm₁, hmarks₁, hcol₁⟩ := hm.unselect (hs (row, col) List.mem_cons_self)
    have hs₁ : ∀ cell ∈ cells, m₁.col? cell.1 = some cell.2 := by
      intro cell hc
      have hne : cell.1 ≠ row := fun he => hrow (List.mem_map.mpr ⟨cell, hc, he⟩)
      rw [hcol₁, if_neg hne]
      exact hs cell (List.mem_cons_of_mem _ hc)
    obtain ⟨m₂, halong, hm₂, hmarks₂, hcol₂⟩ := ih hm₁ hs₁ hrest
    refine ⟨m₂, ?_, hm₂, hmarks₂.trans hmarks₁, fun row' => ?_⟩
    · rw [AlternatingPath.along, hun]
      exact halong
    · rw [hcol₂, hcol₁]
      by_cases h : row' = row
      · simp [h]
      · simp only [List.map_cons, List.mem_cons, h, false_or, ↓reduceIte]

theorem along_select (hm : m.Paired n) (hlt : ∀ cell ∈ cells, cell.1 < n ∧ cell.2 < n)
    (hfree : ∀ cell ∈ cells, m.col? cell.1 = none ∧ m.row? cell.2 = none)
    (hrows : (cells.map Prod.fst).Nodup) (hcols : (cells.map Prod.snd).Nodup) :
    ∃ m', AlternatingPath.along Matching.select cells m = (m', none) ∧ m'.Paired n ∧
      ∀ row col, m'.col? row = some col ↔ (row, col) ∈ cells ∨ m.col? row = some col := by
  induction cells generalizing m with
  | nil => exact ⟨m, rfl, hm, fun row col => by simp⟩
  | cons cell cells ih =>
    obtain ⟨row, col⟩ := cell
    obtain ⟨hrow, hrest⟩ := List.nodup_cons.mp hrows
    obtain ⟨hcol, hrest'⟩ := List.nodup_cons.mp hcols
    obtain ⟨hr, hc⟩ := hlt (row, col) List.mem_cons_self
    obtain ⟨hfr, hfc⟩ := hfree (row, col) List.mem_cons_self
    obtain ⟨m₁, hsel, hm₁, -, hcol₁⟩ := hm.select hr hc hfr hfc
    have hfree₁ : ∀ cell ∈ cells, m₁.col? cell.1 = none ∧ m₁.row? cell.2 = none := by
      intro cell hmem
      obtain ⟨hr', hc'⟩ := hfree cell (List.mem_cons_of_mem _ hmem)
      have hne : cell.1 ≠ row := fun he => hrow (List.mem_map.mpr ⟨cell, hmem, he⟩)
      refine ⟨by rw [hcol₁, if_neg hne, hr'], Option.eq_none_iff_forall_ne_some.mpr ?_⟩
      intro row' hrow'
      have hsel' := (hm₁.inverse row' cell.2).mpr hrow'
      rw [hcol₁] at hsel'
      split at hsel'
      · exact hcol (List.mem_map.mpr ⟨cell, hmem, (Option.some.inj hsel').symm⟩)
      · rw [(hm.inverse row' cell.2).mp hsel'] at hc'
        contradiction
    obtain ⟨m₂, halong, hm₂, hcol₂⟩ :=
      ih hm₁ (fun cell hmem => hlt cell (List.mem_cons_of_mem _ hmem)) hfree₁ hrest hrest'
    refine ⟨m₂, ?_, hm₂, fun row' col' => ?_⟩
    · rw [AlternatingPath.along, hsel]
      exact halong
    · rw [hcol₂, hcol₁, List.mem_cons, Prod.mk.injEq]
      by_cases h : row' = row
      · subst h
        simp only [↓reduceIte, Option.some.injEq, true_and, hfr, reduceCtorEq, or_false]
        rw [or_comm, eq_comm]
      · simp [h]

/-- Flipping the path along a chain from a free row. -/
theorem flip_spec (hm : m.Paired n) (hmarks : ∀ row col, m.mark? row = some col → col < n)
    (h : Chain m col prepared selected last) (hrow : row < n) (hcol : col < n)
    (hfree : m.col? row = none) :
    ∃ m', AlternatingPath.flip ⟨(row, col) :: prepared, selected⟩ m = (m', none) ∧ m'.Paired n ∧
      (∀ row, m'.mark? row = none) ∧
      ∀ row' col', m'.col? row' = some col' ↔ (row', col') ∈ (row, col) :: prepared ∨
        m.col? row' = some col' ∧ row' ∉ selected.map Prod.fst := by
  have hsel : ∀ cell ∈ selected, m.col? cell.1 = some cell.2 :=
    fun cell hc => (hm.inverse _ _).mpr (h.row?_of_mem hc)
  obtain ⟨m₁, hun, hm₁, -, hcol₁⟩ := along_unselect hm hsel (h.nodup_rows hm)
  have hrow' : row ∉ selected.map Prod.fst := (List.nodup_cons.mp (h.nodup_cons_rows hm hfree)).1
  have hlt : ∀ cell ∈ (row, col) :: prepared, cell.1 < n ∧ cell.2 < n := by
    intro cell hc
    rcases List.mem_cons.mp hc with rfl | hc
    · exact ⟨hrow, hcol⟩
    · have hr : cell.1 ∈ selected.map Prod.fst := by
        rw [← h.map_fst_eq]
        exact List.mem_map_of_mem hc
      exact ⟨(h.lt_of_mem_rows hm hr).1, hmarks _ _ (h.mark?_of_mem hc)⟩
  have hrows : (((row, col) :: prepared).map Prod.fst).Nodup := by
    rw [List.map_cons, h.map_fst_eq]
    exact h.nodup_cons_rows hm hfree
  have hfree₁ : ∀ cell ∈ (row, col) :: prepared, m₁.col? cell.1 = none ∧ m₁.row? cell.2 = none := by
    intro cell hc
    constructor
    · rcases List.mem_cons.mp hc with rfl | hc
      · rw [hcol₁, if_neg hrow', hfree]
      · have hr : cell.1 ∈ selected.map Prod.fst := by
          rw [← h.map_fst_eq]
          exact List.mem_map_of_mem hc
        rw [hcol₁, if_pos hr]
    · refine Option.eq_none_iff_forall_ne_some.mpr fun other hother => ?_
      have hother' := (hm₁.inverse other cell.2).mpr hother
      rw [hcol₁] at hother'
      split at hother'
      · contradiction
      rename_i hnot
      -- the column is left by a selected cell, whose row is no longer matched, or it ends the chain
      have hmem : cell.2 ∈ selected.map Prod.snd ++ [last] := by
        rw [← h.cons_map_snd_eq]
        exact List.mem_map_of_mem hc
      rcases List.mem_append.mp hmem with hmem | hmem
      · obtain ⟨cell', hc', he⟩ := List.mem_map.mp hmem
        have := hm.col_inj (hsel cell' hc') (he ▸ hother')
        exact hnot (this ▸ List.mem_map_of_mem hc')
      · have hlast := (hm.inverse other cell.2).mp hother'
        rw [List.mem_singleton.mp hmem, h.free] at hlast
        contradiction
  obtain ⟨m₂, hjoin, hm₂, hcol₂⟩ := along_select hm₁ hlt hfree₁ hrows h.nodup_cols
  refine ⟨m₂.clearPrepared, ?_, hm₂.clearPrepared, mark?_clearPrepared m₂, fun row' col' => ?_⟩
  · simp only [AlternatingPath.flip, hun, hjoin]
  · refine (hcol₂ row' col').trans (or_congr_right ?_)
    rw [hcol₁]
    split <;> simp_all

section Lines

variable {m' : Matching Nat} (hm : m.Paired n) (hm' : m'.Paired n)
  (h : Chain m col prepared selected last)
  (hflip : ∀ row' col', m'.col? row' = some col' ↔ (row', col') ∈ (row, col) :: prepared ∨
    m.col? row' = some col' ∧ row' ∉ selected.map Prod.fst)
include hm h hflip

theorem isSome_col?_flip (row' : Nat) :
    (m'.col? row').isSome ↔ row' = row ∨ (m.col? row').isSome := by
  simp only [Option.isSome_iff_exists, hflip]
  constructor
  · rintro ⟨col', hmem | ⟨hc, -⟩⟩
    · rcases List.mem_cons.mp hmem with he | hmem
      · exact .inl (Prod.mk.inj he).1
      · have hr : row' ∈ selected.map Prod.fst := by
          rw [← h.map_fst_eq]
          exact List.mem_map_of_mem hmem
        exact .inr (Option.isSome_iff_exists.mp (h.lt_of_mem_rows hm hr).2)
    · exact .inr ⟨col', hc⟩
  · rintro (rfl | ⟨col', hc⟩)
    · exact ⟨col, .inl List.mem_cons_self⟩
    · by_cases hr : row' ∈ selected.map Prod.fst
      · rw [← h.map_fst_eq] at hr
        obtain ⟨⟨row'', col''⟩, hmem, rfl⟩ := List.mem_map.mp hr
        exact ⟨col'', .inl (List.mem_cons_of_mem _ hmem)⟩
      · exact ⟨col', .inr ⟨hc, hr⟩⟩

include hm' in
theorem isSome_row?_flip (col' : Nat) :
    (m'.row? col').isSome ↔ col' = last ∨ (m.row? col').isSome := by
  -- the columns of the prepared cells are those of the selected ones and the last one
  have hcols : (∃ row', (row', col') ∈ (row, col) :: prepared) ↔
      col' ∈ selected.map Prod.snd ∨ col' = last := by
    have hmem : col' ∈ ((row, col) :: prepared).map Prod.snd ↔
        col' ∈ selected.map Prod.snd ++ [last] := by rw [← h.cons_map_snd_eq]; rfl
    rw [List.mem_append, List.mem_singleton] at hmem
    rw [← hmem, List.mem_map]
    exact ⟨fun ⟨row', hc⟩ => ⟨_, hc, rfl⟩, fun ⟨⟨row', _⟩, hc, he⟩ => ⟨row', he ▸ hc⟩⟩
  simp only [Option.isSome_iff_exists, ← hm'.inverse, ← hm.inverse, hflip, exists_or, hcols]
  constructor
  · rintro ((hmem | hlast) | ⟨row', hc, -⟩)
    · obtain ⟨cell, hc, rfl⟩ := List.mem_map.mp hmem
      exact .inr ⟨cell.1, (hm.inverse _ _).mpr (h.row?_of_mem hc)⟩
    · exact .inl hlast
    · exact .inr ⟨row', hc⟩
  · rintro (hlast | ⟨row', hc⟩)
    · exact .inl (.inr hlast)
    · by_cases hr : row' ∈ selected.map Prod.fst
      · obtain ⟨cell, hmem, rfl⟩ := List.mem_map.mp hr
        have hc' := (hm.inverse _ _).mpr (h.row?_of_mem hmem)
        rw [hc] at hc'
        rw [Option.some.inj hc']
        exact .inl (.inl (List.mem_map_of_mem hmem))
      · exact .inr ⟨row', hc, hr⟩

include hm' in
theorem matchedRows_flip : m'.matchedRows n = insert row (m.matchedRows n) := by
  ext row'
  rw [Finset.mem_insert, hm'.mem_matchedRows_iff, hm.mem_matchedRows_iff,
    isSome_col?_flip hm h hflip]

include hm' in
theorem matchedCols_flip : m'.matchedCols n = insert last (m.matchedCols n) := by
  ext col'
  rw [Finset.mem_insert, hm'.mem_matchedCols_iff, hm.mem_matchedCols_iff,
    isSome_row?_flip hm hm' h hflip]

include hm' in
theorem numSelected_flip (hfree : m.col? row = none) : m'.numSelected = m.numSelected + 1 := by
  have hrow : row ∉ m.matchedRows n := by
    rw [hm.mem_matchedRows_iff, hfree]
    exact Bool.false_ne_true
  rw [← hm'.card_matchedRows, ← hm.card_matchedRows, matchedRows_flip hm hm' h hflip,
    Finset.card_insert_of_notMem hrow]

omit hm in
/-- Rows off the path keep what they have. -/
theorem col?_flip_of_notMem {other : Nat} (hother : other ∉ row :: selected.map Prod.fst) :
    m'.col? other = m.col? other := by
  rw [← h.map_fst_eq] at hother hflip
  have hcells : ∀ col', (other, col') ∉ (row, col) :: prepared := fun col' hmem =>
    hother (List.mem_map_of_mem (f := Prod.fst) hmem)
  have hprepared : other ∉ prepared.map Prod.fst := fun hmem => hother (List.mem_cons_of_mem _ hmem)
  ext col'
  simp only [hflip, hcells, hprepared, false_or, not_false_eq_true, and_true]

end Lines

/-! ### Paths that were built -/

theorem lt_of_build {path : AlternatingPath Nat} (hm : m.Paired n)
    (hbuild : AlternatingPath.build m row col = .ok path) : col < n := by
  by_contra hc
  have hnone : m.rowOfCol[col]? = none := by
    rw [List.getElem?_eq_none_iff, hm.length_rows]
    omega
  have hslot : m.selectedRow col = .error .outOfRange := by
    simp [selectedRow, slotAt, Position.get?_nat, hnone]
  rw [AlternatingPath.build, AlternatingPath.follow, hslot] at hbuild
  contradiction

/-- A path that was built from a free row is flipped without a fault. The matching gains the row at
its start and the column at its end, and one selected zero; its prepared cells are selected, rows
off the path are left alone, and no row keeps a prepared zero. -/
theorem flip_built {path : AlternatingPath Nat} (hm : m.Paired n)
    (hmarks : ∀ row col, m.mark? row = some col → col < n) (hrow : row < n)
    (hfree : m.col? row = none) (hbuild : AlternatingPath.build m row col = .ok path) :
    ∃ m', path.flip m = (m', none) ∧ m'.Paired n ∧
      m'.matchedRows n = insert row (m.matchedRows n) ∧
      (∃ last, (path.prepared.map Prod.snd).getLast? = some last ∧
        m'.matchedCols n = insert last (m.matchedCols n)) ∧
      (∀ cell ∈ path.prepared, m'.col? cell.1 = some cell.2) ∧
      (∀ other ∉ path.prepared.map Prod.fst, m'.col? other = m.col? other) ∧
      m'.numSelected = m.numSelected + 1 ∧ m'.preparedPairs = [] := by
  have hcol := lt_of_build hm hbuild
  obtain ⟨prepared, selected, last, chain, rfl⟩ := (build_eq_ok_iff hm hmarks hcol).mp hbuild
  obtain ⟨m', hflip, hm', hclear, hcells⟩ := flip_spec hm hmarks chain hrow hcol hfree
  refine ⟨m', hflip, hm', matchedRows_flip hm hm' chain hcells,
    ⟨last, ?_, matchedCols_flip hm hm' chain hcells⟩, ?_, ?_,
    numSelected_flip hm hm' chain hcells hfree, filled_eq_nil hclear⟩
  · rw [List.map_cons, chain.cons_map_snd_eq, List.getLast?_concat]
  · exact fun cell hc => (hcells cell.1 cell.2).mpr (.inl hc)
  · intro other hother
    rw [List.map_cons, chain.map_fst_eq] at hother
    exact col?_flip_of_notMem chain hcells hother

theorem flip_built_two :
    Paired 2 ⟨2, [some 0, none], [some 0, none], [some 1, none]⟩ ∧
      AlternatingPath.build
        (⟨2, [some 0, none], [some 0, none], [some 1, none]⟩ : Matching Nat) 1 0 =
          .ok ⟨[(1, 0), (0, 1)], [(0, 0)]⟩ ∧
      ∃ m' : Matching Nat, AlternatingPath.flip ⟨[(1, 0), (0, 1)], [(0, 0)]⟩
          ⟨2, [some 0, none], [some 0, none], [some 1, none]⟩ = (m', none) ∧ m'.Paired 2 ∧
        m'.col? 1 = some 0 ∧ m'.col? 0 = some 1 ∧ m'.numSelected = 2 := by
  have hm : Paired 2 ⟨2, [some 0, none], [some 0, none], [some 1, none]⟩ := by
    refine ⟨rfl, rfl, rfl, rfl, fun row col => ?_⟩
    rcases row with _ | _ | row <;> rcases col with _ | _ | col <;> simp [col?, row?, content]
  have hmarks : ∀ row col,
      mark? ⟨2, [some 0, none], [some 0, none], [some 1, none]⟩ row = some col → col < 2 := by
    intro row col h
    rcases row with _ | _ | row <;> simp [mark?, content] at h
    omega
  have hbuild : AlternatingPath.build
      (⟨2, [some 0, none], [some 0, none], [some 1, none]⟩ : Matching Nat) 1 0 =
        .ok ⟨[(1, 0), (0, 1)], [(0, 0)]⟩ :=
    (build_eq_ok_iff hm hmarks (by decide)).mpr ⟨_, _, 1, .step rfl rfl (.stop rfl), rfl⟩
  obtain ⟨m', hflip, hm', -, -, hcells, -, hnum, -⟩ :=
    flip_built hm hmarks (by decide) rfl hbuild
  exact ⟨hm, hbuild, m', hflip, hm', hcells (1, 0) (by decide), hcells (0, 1) (by decide), hnum⟩

end OptimalAssignment.Matching
