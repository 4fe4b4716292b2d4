import Mathlib
import OptimalAssignment.Proofs.Matching.Chain

/-!
Walks along prepared zeros. A walk hops from a column to the column prepared in the row of its
selected zero. No column has two hops, so a walk has one of three fates: it comes to a column
without a selected zero, it comes to a row without a prepared zero, or it goes round in a circle.
The path builder tells them apart. A walk with as many hops as there are columns meets a column
twice, so the limit on the length of a path stops only the walks that would never end.
-/
namespace OptimalAssignment.Matching

open Relation

variable {n row col other : Nat} {m : Matching Nat}

/-- From a column to the column prepared in the row of its selected zero. -/
def Hop (m : Matching Nat) (col next : Nat) : Prop :=
  ∃ row, m.row? col = some row ∧ m.mark? row = some next

theorem hop_rightUnique (m : Matching Nat) : Relator.RightUnique m.Hop := by
  rintro col next next' ⟨row, hr, hm⟩ ⟨row', hr', hm'⟩
  obtain rfl := Option.some.inj (hr.symm.trans hr')
  exact Option.some.inj (hm.symm.trans hm')

/-! ### Ends and circles -/

/-- A column from which no hop leads on. -/
def IsEnd (m : Matching Nat) (col : Nat) : Prop :=
  ∀ next, ¬ m.Hop col next

theorem isEnd_of_free (h : m.row? col = none) : m.IsEnd col := by
  rintro next ⟨row, hr, -⟩
  rw [h] at hr
  contradiction

theorem isEnd_of_unmarked (hr : m.row? col = some row) (hm : m.mark? row = none) :
    m.IsEnd col := by
  rintro next ⟨row', hr', hm'⟩
  obtain rfl := Option.some.inj (hr.symm.trans hr')
  rw [hm] at hm'
  contradiction

namespace IsEnd

theorem eq_of_walk (h : m.IsEnd col) (hw : ReflTransGen m.Hop col other) : col = other := by
  rcases hw.cases_head with he | ⟨next, hop, -⟩
  · exact he
  · exact absurd hop (h next)

theorem unique {start : Nat} (h : m.IsEnd col) (h' : m.IsEnd other)
    (hw : ReflTransGen m.Hop start col) (hw' : ReflTransGen m.Hop start other) : col = other := by
  rcases ReflTransGen.total_of_right_unique (hop_rightUnique m) hw hw' with hw | hw
  · exact h.eq_of_walk hw
  · exact (h'.eq_of_walk hw).symm

end IsEnd

/-- A walk never leaves a circle. -/
theorem circle_of_walk (hc : TransGen m.Hop col col) (hw : ReflTransGen m.Hop col other) :
    TransGen m.Hop other other := by
  induction hw with
  | refl => exact hc
  | tail _ hop ih =>
    obtain ⟨next, hop', hback⟩ := TransGen.head'_iff.mp ih
    obtain rfl := hop_rightUnique m hop hop'
    exact TransGen.tail' hback hop

theorem IsEnd.not_circle {start : Nat} (h : m.IsEnd col) (hw : ReflTransGen m.Hop start col)
    (hw' : ReflTransGen m.Hop start other) : ¬ TransGen m.Hop other other := by
  intro hc
  have hend : TransGen m.Hop col col := by
    rcases ReflTransGen.total_of_right_unique (hop_rightUnique m) hw hw' with hw | hw
    · rw [h.eq_of_walk hw]
      exact hc
    · exact circle_of_walk hc hw
  obtain ⟨next, hop, -⟩ := TransGen.head'_iff.mp hend
  exact h next hop

theorem walk_of_mem {cols : List Nat} (h : List.IsChain m.Hop (col :: cols))
    (hc : other ∈ col :: cols) : ReflTransGen m.Hop col other := by
  have hpairs : (col :: cols).Pairwise (TransGen m.Hop) :=
    List.isChain_iff_pairwise.mp (h.imp fun _ _ => TransGen.single)
  rcases List.mem_cons.mp hc with rfl | hc
  · exact .refl
  · exact (List.rel_of_pairwise_cons hpairs hc).to_reflTransGen

theorem lt_of_mem_walk (hmarks : ∀ row col, m.mark? row = some col → col < n) (hcol : col < n)
    {cols : List Nat} (h : List.IsChain m.Hop (col :: cols)) : ∀ c ∈ col :: cols, c < n := by
  induction cols generalizing col with
  | nil => simpa using hcol
  | cons next cols ih =>
    obtain ⟨⟨row, -, hm⟩, hrest⟩ := List.isChain_cons_cons.mp h
    exact List.forall_mem_cons.mpr ⟨hcol, ih (hmarks row next hm) hrest⟩

/-- A walk that is longer than the number of columns has come round. -/
theorem exists_circle (hmarks : ∀ row col, m.mark? row = some col → col < n) (hcol : col < n)
    {cols : List Nat} (h : List.IsChain m.Hop (col :: cols)) (hlong : n ≤ cols.length) :
    ∃ c, ReflTransGen m.Hop col c ∧ TransGen m.Hop c c := by
  have hdup : ¬ (col :: cols).Nodup := by
    intro hnodup
    have hle : (col :: cols).toFinset.card ≤ (Finset.range n).card := by
      refine Finset.card_le_card fun c hc => ?_
      exact Finset.mem_range.mpr (lt_of_mem_walk hmarks hcol h c (List.mem_toFinset.mp hc))
    rw [List.toFinset_card_of_nodup hnodup, List.length_cons, Finset.card_range] at hle
    omega
  obtain ⟨c, hc⟩ := List.exists_duplicate_iff_not_nodup.mpr hdup
  have hpairs : (col :: cols).Pairwise (TransGen m.Hop) :=
    List.isChain_iff_pairwise.mp (h.imp fun _ _ => TransGen.single)
  exact ⟨c, walk_of_mem h hc.mem, hpairs.forall_sublist (List.duplicate_iff_sublist.mp hc)⟩

/-! ### Chains are the walks that end in a free column -/

variable {prepared selected : List (Cell Nat)} {last : Nat}

theorem Chain.walk (h : Chain m col prepared selected last) : ReflTransGen m.Hop col last := by
  induction h with
  | stop => exact .refl
  | step matched marked _ ih => exact .head ⟨_, matched, marked⟩ ih

theorem exists_chain_of_walk (hw : ReflTransGen m.Hop col last) (hfree : m.row? last = none) :
    ∃ prepared selected, Chain m col prepared selected last := by
  induction hw using ReflTransGen.head_induction_on with
  | refl => exact ⟨[], [], .stop hfree⟩
  | head hop _ ih =>
    obtain ⟨row, matched, marked⟩ := hop
    obtain ⟨prepared, selected, hchain⟩ := ih
    exact ⟨_, _, .step matched marked hchain⟩

/-! ### Following the marks -/

section Follow

variable (hm : m.Paired n) (hcol : col < n) (budget : Nat)
include hm hcol

theorem follow_of_free (hr : m.row? col = none) :
    AlternatingPath.follow m budget col = .ok ⟨[], []⟩ := by
  rw [AlternatingPath.follow, hm.selectedRow_eq hcol, hr]
  rfl

theorem follow_of_unmarked (hr : m.row? col = some row) (hmark : m.mark? row = none) :
    AlternatingPath.follow m budget col = .error (.rowUnmarked row) := by
  have hrow := hm.row_lt ((hm.inverse row col).mpr hr)
  rw [AlternatingPath.follow, hm.selectedRow_eq hcol, hr]
  simp only [bind, Except.bind, hm.preparedCol_eq hrow, hmark]
  rfl

omit budget in
theorem follow_zero_of_hop (hop : m.Hop col other) :
    AlternatingPath.follow m 0 col = .error .pathTooLong := by
  obtain ⟨row, hr, hmark⟩ := hop
  have hrow := hm.row_lt ((hm.inverse row col).mpr hr)
  rw [AlternatingPath.follow, hm.selectedRow_eq hcol, hr]
  simp only [bind, Except.bind, hm.preparedCol_eq hrow, hmark]
  rfl

theorem follow_succ_of_hop {row next : Nat} (hr : m.row? col = some row)
    (hmark : m.mark? row = some next) :
    AlternatingPath.follow m (budget + 1) col =
      (AlternatingPath.follow m budget next).map fun rest =>
        ⟨(row, next) :: rest.prepared, (row, col) :: rest.selected⟩ := by
  have hrow := hm.row_lt ((hm.inverse row col).mpr hr)
  rw [AlternatingPath.follow, hm.selectedRow_eq hcol, hr]
  simp only [bind, Except.bind, hm.preparedCol_eq hrow, hmark]
  cases AlternatingPath.follow m budget next <;> rfl

end Follow

/-- What following the marks comes to: the chain, a row without a prepared zero, or a walk that is
longer than the budget. -/
theorem follow_cases (hm : m.Paired n) (hmarks : ∀ row col, m.mark? row = some col → col < n)
    (hcol : col < n) (budget : Nat) :
    (∃ prepared selected last, Chain m col prepared selected last ∧
      AlternatingPath.follow m budget col = .ok ⟨prepared, selected⟩) ∨
    (∃ c row, ReflTransGen m.Hop col c ∧ m.row? c = some row ∧ m.mark? row = none ∧
      AlternatingPath.follow m budget col = .error (.rowUnmarked row)) ∨
    ∃ cols, cols.length = budget + 1 ∧ List.IsChain m.Hop (col :: cols) ∧
      AlternatingPath.follow m budget col = .error .pathTooLong := by
  induction budget generalizing col with
  | zero =>
    cases hr : m.row? col with
    | none => exact .inl ⟨[], [], col, .stop hr, follow_of_free hm hcol 0 hr⟩
    | some row =>
      cases hmark : m.mark? row with
      | none =>
        exact .inr (.inl ⟨col, row, .refl, hr, hmark, follow_of_unmarked hm hcol 0 hr hmark⟩)
      | some next =>
        have hop : m.Hop col next := ⟨row, hr, hmark⟩
        have hchain : List.IsChain m.Hop [col, next] := .cons_cons hop (.singleton next)
        exact .inr (.inr ⟨[next], rfl, hchain, follow_zero_of_hop hm hcol hop⟩)
  | succ budget ih =>
    cases hr : m.row? col with
    | none => exact .inl ⟨[], [], col, .stop hr, follow_of_free hm hcol _ hr⟩
    | some row =>
      cases hmark : m.mark? row with
      | none =>
        exact .inr (.inl ⟨col, row, .refl, hr, hmark, follow_of_unmarked hm hcol _ hr hmark⟩)
      | some next =>
        have hop : m.Hop col next := ⟨row, hr, hmark⟩
        rw [follow_succ_of_hop hm hcol budget hr hmark]
        rcases ih (hmarks row next hmark) with ⟨prepared, selected, last, hchain, hfollow⟩ |
          ⟨c, other, hwalk, hmatched, hunmarked, hfollow⟩ | ⟨cols, hlength, hchain, hfollow⟩
        · exact .inl ⟨_, _, last, .step hr hmark hchain, by rw [hfollow]; rfl⟩
        · exact .inr (.inl ⟨c, other, .head hop hwalk, hmatched, hunmarked, by rw [hfollow]; rfl⟩)
        · exact .inr (.inr ⟨next :: cols, by rw [List.length_cons, hlength], .cons_cons hop hchain,
            by rw [hfollow]; rfl⟩)

/-! ### Building the path -/

/-- The fates of a walk, each with what comes of the path that was to be built along it. -/
inductive Fate (m : Matching Nat) (row col : Nat) : Except Fault (AlternatingPath Nat) → Prop
  | ends {prepared selected : List (Cell Nat)} {last : Nat}
      (chain : Chain m col prepared selected last) :
      Fate m row col (.ok ⟨(row, col) :: prepared, selected⟩)
  | breaks {c other : Nat} (walk : ReflTransGen m.Hop col c) (matched : m.row? c = some other)
      (unmarked : m.mark? other = none) : Fate m row col (.error (.rowUnmarked other))
  | circles {c : Nat} (walk : ReflTransGen m.Hop col c) (circle : TransGen m.Hop c c) :
      Fate m row col (.error .pathTooLong)

theorem build_fate (hm : m.Paired n) (hmarks : ∀ row col, m.mark? row = some col → col < n)
    (hcol : col < n) (row : Nat) : Fate m row col (AlternatingPath.build m row col) := by
  have hbudget : m.size - 1 + 1 = n := by rw [hm.size_eq]; omega
  rw [AlternatingPath.build]
  rcases follow_cases hm hmarks hcol (m.size - 1) with ⟨prepared, selected, last, hchain, hfollow⟩ |
    ⟨c, other, hwalk, hmatched, hunmarked, hfollow⟩ | ⟨cols, hlength, hchain, hfollow⟩
  · rw [hfollow]
    exact .ends hchain
  · rw [hfollow]
    exact .breaks hwalk hmatched hunmarked
  · obtain ⟨c, hwalk, hcircle⟩ := exists_circle hmarks hcol hchain (by omega)
    rw [hfollow]
    exact .circles hwalk hcircle

theorem Fate.unique {result result' : Except Fault (AlternatingPath Nat)}
    (h : Fate m row col result) (h' : Fate m row col result') : result = result' := by
  cases h with
  | ends chain =>
    have hend := isEnd_of_free chain.free
    cases h' with
    | ends chain' =>
      obtain ⟨rfl, rfl, -⟩ := chain.functional chain'
      rfl
    | breaks walk' matched' unmarked' =>
      obtain rfl := hend.unique (isEnd_of_unmarked matched' unmarked') chain.walk walk'
      rw [chain.free] at matched'
      contradiction
    | circles walk' circle' => exact absurd circle' (hend.not_circle chain.walk walk')
  | breaks walk matched unmarked =>
    have hend := isEnd_of_unmarked matched unmarked
    cases h' with
    | ends chain' =>
      obtain rfl := hend.unique (isEnd_of_free chain'.free) walk chain'.walk
      rw [chain'.free] at matched
      contradiction
    | breaks walk' matched' unmarked' =>
      obtain rfl := hend.unique (isEnd_of_unmarked matched' unmarked') walk walk'
      obtain rfl := Option.some.inj (matched.symm.trans matched')
      rfl
    | circles walk' circle' => exact absurd circle' (hend.not_circle walk walk')
  | circles walk circle =>
    cases h' with
    | ends chain' =>
      exact absurd circle ((isEnd_of_free chain'.free).not_circle chain'.walk walk)
    | breaks walk' matched' unmarked' =>
      exact absurd circle ((isEnd_of_unmarked matched' unmarked').not_circle walk' walk)
    | circles => rfl

section Build

variable (hm : m.Paired n) (hmarks : ∀ row col, m.mark? row = some col → col < n)
  (hcol : col < n)
include hm hmarks hcol

theorem build_eq_iff {result : Except Fault (AlternatingPath Nat)} :
    AlternatingPath.build m row col = result ↔ Fate m row col result := by
  constructor
  · rintro rfl
    exact build_fate hm hmarks hcol row
  · exact (build_fate hm hmarks hcol row).unique

theorem build_eq_ok_iff {path : AlternatingPath Nat} :
    AlternatingPath.build m row col = .ok path ↔ ∃ prepared selected last,
      Chain m col prepared selected last ∧ path = ⟨(row, col) :: prepared, selected⟩ := by
  rw [build_eq_iff hm hmarks hcol]
  constructor
  · rintro ⟨chain⟩
    exact ⟨_, _, _, chain, rfl⟩
  · rintro ⟨prepared, selected, last, chain, rfl⟩
    exact .ends chain

end Build

end OptimalAssignment.Matching

namespace OptimalAssignment

open Matching Relation

/-- A path of prepared and selected cells in turn, from a cell to a free column. -/
structure AlternatingPath.Alternates (m : Matching Nat) (row col : Nat)
    (path : AlternatingPath Nat) : Prop where
  start : path.prepared.head? = some (row, col)
  length_eq : path.prepared.length = path.selected.length + 1
  nodup_rows : (path.prepared.map Prod.fst).Nodup
  nodup_cols : (path.prepared.map Prod.snd).Nodup
  /-- A selected cell is in the row of the prepared cell after it. -/
  rows_eq : path.selected.map Prod.fst = (path.prepared.map Prod.fst).tail
  /-- A selected cell is in the column of the prepared cell before it. -/
  cols_eq : path.selected.map Prod.snd = (path.prepared.map Prod.snd).dropLast
  selected : ∀ cell ∈ path.selected, m.col? cell.1 = some cell.2
  marked : ∀ cell ∈ path.prepared.tail, m.mark? cell.1 = some cell.2
  free : ∃ last, (path.prepared.map Prod.snd).getLast? = some last ∧ m.row? last = none

namespace Matching

variable {n row col last : Nat} {m : Matching Nat} {prepared selected : List (Cell Nat)}

theorem Chain.alternates (hm : m.Paired n) (h : Chain m col prepared selected last)
    (hfree : m.col? row = none) :
    AlternatingPath.Alternates m row col ⟨(row, col) :: prepared, selected⟩ where
  start := rfl
  length_eq := by
    have hrows := congrArg List.length h.map_fst_eq
    rw [List.length_map, List.length_map] at hrows
    rw [List.length_cons, hrows]
  nodup_rows := by
    rw [List.map_cons, h.map_fst_eq]
    exact h.nodup_cons_rows hm hfree
  nodup_cols := h.nodup_cols
  rows_eq := h.map_fst_eq.symm
  cols_eq := by rw [List.map_cons, h.cons_map_snd_eq, List.dropLast_concat]
  selected := fun cell hc => (hm.inverse _ _).mpr (h.row?_of_mem hc)
  marked := fun cell hc => h.mark?_of_mem hc
  free := ⟨last, by rw [List.map_cons, h.cons_map_snd_eq, List.getLast?_concat], h.free⟩

/-- The path builder is exact. A path is returned just if the walk from the column comes to a
column without a selected zero, a row without a prepared zero is named just if the walk comes to it,
and the limit on the length is reached just if the walk goes round in a circle; nothing else can
happen. A path that is returned alternates. -/
theorem build_exact (hm : m.Paired n) (hmarks : ∀ row col, m.mark? row = some col → col < n)
    (hfree : m.col? row = none) (hcol : col < n) :
    ((∃ path, AlternatingPath.build m row col = .ok path) ↔
      ∃ last, ReflTransGen m.Hop col last ∧ m.row? last = none) ∧
    (∀ other : Nat, AlternatingPath.build m row col = .error (.rowUnmarked other) ↔
      ∃ c, ReflTransGen m.Hop col c ∧ m.row? c = some other ∧ m.mark? other = none) ∧
    (AlternatingPath.build m row col = .error .pathTooLong ↔
      ∃ c, ReflTransGen m.Hop col c ∧ TransGen m.Hop c c) ∧
    (∀ fault, AlternatingPath.build m row col = .error fault →
      fault = .pathTooLong ∨ ∃ other : Nat, fault = .rowUnmarked other) ∧
    ∀ path, AlternatingPath.build m row col = .ok path → path.Alternates m row col := by
  refine ⟨⟨?_, ?_⟩, fun other => ⟨?_, ?_⟩, ⟨?_, ?_⟩, ?_, ?_⟩
  · rintro ⟨path, hbuild⟩
    obtain ⟨_, _, last, chain, -⟩ := (build_eq_ok_iff hm hmarks hcol).mp hbuild
    exact ⟨last, chain.walk, chain.free⟩
  · rintro ⟨last, hwalk, hend⟩
    obtain ⟨prepared, selected, chain⟩ := exists_chain_of_walk hwalk hend
    exact ⟨_, (build_eq_iff hm hmarks hcol).mpr (.ends chain)⟩
  · intro hbuild
    generalize hfault : Except.error (Fault.rowUnmarked other) = result at hbuild
    cases (build_eq_iff hm hmarks hcol).mp hbuild with
    | ends => contradiction
    | @breaks c other' walk matched unmarked =>
      have hother : (other : Int) = other' := Fault.rowUnmarked.inj (Except.error.inj hfault)
      obtain rfl := Int.ofNat.inj hother
      exact ⟨c, walk, matched, unmarked⟩
    | circles => simp at hfault
  · rintro ⟨c, hwalk, hmatched, hunmarked⟩
    exact (build_eq_iff hm hmarks hcol).mpr (.breaks hwalk hmatched hunmarked)
  · intro hbuild
    cases (build_eq_iff hm hmarks hcol).mp hbuild with
    | circles walk circle => exact ⟨_, walk, circle⟩
  · rintro ⟨c, hwalk, hcircle⟩
    exact (build_eq_iff hm hmarks hcol).mpr (.circles hwalk hcircle)
  · intro fault hbuild
    cases (build_eq_iff hm hmarks hcol).mp hbuild with
    | breaks => exact .inr ⟨_, rfl⟩
    | circles => exact .inl rfl
  · intro path hbuild
    obtain ⟨_, _, last, chain, rfl⟩ := (build_eq_ok_iff hm hmarks hcol).mp hbuild
    exact chain.alternates hm hfree

theorem build_exact_three :
    Paired 3 ⟨3, [some 0, some 1, none], [some 0, some 1, none], [some 1, some 0, none]⟩ ∧
      AlternatingPath.build
        (⟨3, [some 0, some 1, none], [some 0, some 1, none], [some 1, some 0, none]⟩ :
          Matching Nat) 2 0 = .error .pathTooLong := by
  have hm : Paired 3
      ⟨3, [some 0, some 1, none], [some 0, some 1, none], [some 1, some 0, none]⟩ := by
    refine ⟨rfl, rfl, rfl, rfl, fun row col => ?_⟩
    rcases row with _ | _ | _ | row <;> rcases col with _ | _ | _ | col <;>
      simp [col?, row?, content]
  have hmarks : ∀ row col, mark?
      ⟨3, [some 0, some 1, none], [some 0, some 1, none], [some 1, some 0, none]⟩ row = some col →
        col < 3 := by
    intro row col h
    rcases row with _ | _ | _ | row <;> simp [mark?, content] at h <;> omega
  have hcircle : TransGen (Hop
      ⟨3, [some 0, some 1, none], [some 0, some 1, none], [some 1, some 0, none]⟩) 0 0 :=
    .tail (.single ⟨0, rfl, rfl⟩) ⟨1, rfl, rfl⟩
  exact ⟨hm, (build_exact hm hmarks rfl (by decide)).2.2.1.mpr ⟨0, .refl, hcircle⟩⟩

end Matching

end OptimalAssignment
