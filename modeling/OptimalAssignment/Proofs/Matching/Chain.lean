import OptimalAssignment.Matching.AlternatingPath
import OptimalAssignment.Proofs.Matching.Pairing

/-!
Chains: from a column to the selected zero in it, from there to the prepared zero of that row, and
so on to a column without a selected zero. A chain that ends is the only one from its column, so it
never comes back to a column, and the path that follows it has pairwise different rows and columns.
-/
namespace OptimalAssignment.Matching

variable {n row col last : Nat} {m : Matching Nat}
variable {prepared selected : List (Cell Nat)}

/-- The chain from a column: the prepared and the selected cells on it, and the free column at its
end. -/
inductive Chain (m : Matching Nat) : Nat → List (Cell Nat) → List (Cell Nat) → Nat → Prop
  | stop {col : Nat} (free : m.row? col = none) : Chain m col [] [] col
  | step {col row next last : Nat} {prepared selected : List (Cell Nat)}
      (matched : m.row? col = some row) (marked : m.mark? row = some next)
      (rest : Chain m next prepared selected last) :
      Chain m col ((row, next) :: prepared) ((row, col) :: selected) last

namespace Chain

theorem functional {prepared' selected' : List (Cell Nat)} {last' : Nat}
    (h : Chain m col prepared selected last) (h' : Chain m col prepared' selected' last') :
    prepared = prepared' ∧ selected = selected' ∧ last = last' := by
  induction h generalizing prepared' selected' last' with
  | stop free =>
    cases h' with
    | stop => exact ⟨rfl, rfl, rfl⟩
    | step matched => rw [free] at matched; contradiction
  | step matched marked _ ih =>
    cases h' with
    | stop free => rw [matched] at free; contradiction
    | step matched' marked' rest' =>
      obtain rfl := Option.some.inj (matched.symm.trans matched')
      obtain rfl := Option.some.inj (marked.symm.trans marked')
      obtain ⟨rfl, rfl, rfl⟩ := ih rest'
      exact ⟨rfl, rfl, rfl⟩

theorem free (h : Chain m col prepared selected last) : m.row? last = none := by
  induction h with
  | stop free => exact free
  | step _ _ _ ih => exact ih

/-- Both kinds of cells are in the same rows. -/
theorem map_fst_eq (h : Chain m col prepared selected last) :
    prepared.map Prod.fst = selected.map Prod.fst := by
  induction h with
  | stop => rfl
  | step _ _ _ ih => simp [ih]

/-- A column is left by its selected cell and entered by the prepared cell before. -/
theorem cons_map_snd_eq (h : Chain m col prepared selected last) :
    col :: prepared.map Prod.snd = selected.map Prod.snd ++ [last] := by
  induction h with
  | stop => rfl
  | step _ _ _ ih => simpa using ih

theorem row?_of_mem (h : Chain m col prepared selected last) {cell : Cell Nat}
    (hc : cell ∈ selected) : m.row? cell.2 = some cell.1 := by
  induction h with
  | stop => simp at hc
  | step matched _ _ ih =>
    rcases List.mem_cons.mp hc with rfl | hc
    · exact matched
    · exact ih hc

theorem mark?_of_mem (h : Chain m col prepared selected last) {cell : Cell Nat}
    (hc : cell ∈ prepared) : m.mark? cell.1 = some cell.2 := by
  induction h with
  | stop => simp at hc
  | step _ marked _ ih =>
    rcases List.mem_cons.mp hc with rfl | hc
    · exact marked
    · exact ih hc

/-- A column that a chain enters has a shorter chain. -/
theorem exists_shorter (h : Chain m col prepared selected last) {col' : Nat}
    (hc : col' ∈ prepared.map Prod.snd) :
    ∃ prepared' selected', prepared'.length < prepared.length ∧
      Chain m col' prepared' selected' last := by
  induction h with
  | stop => simp at hc
  | step _ _ rest ih =>
    rcases List.mem_cons.mp hc with rfl | hc
    · exact ⟨_, _, Nat.lt_succ_self _, rest⟩
    · obtain ⟨prepared', selected', hlt, h'⟩ := ih hc
      exact ⟨prepared', selected', hlt.trans (Nat.lt_succ_self _), h'⟩

theorem nodup_cols (h : Chain m col prepared selected last) :
    (col :: prepared.map Prod.snd).Nodup := by
  induction h with
  | stop => simp
  | step matched marked rest ih =>
    rw [List.map_cons, List.nodup_cons]
    refine ⟨fun hmem => ?_, ih⟩
    have h := Chain.step matched marked rest
    obtain ⟨prepared', selected', hlt, h'⟩ := h.exists_shorter hmem
    obtain ⟨rfl, -, -⟩ := h.functional h'
    exact lt_irrefl _ hlt

theorem nodup_selected_cols (h : Chain m col prepared selected last) :
    (selected.map Prod.snd).Nodup := by
  have := h.nodup_cols
  rw [h.cons_map_snd_eq] at this
  exact this.of_append_left

theorem nodup_rows (hm : m.Paired n) (h : Chain m col prepared selected last) :
    (selected.map Prod.fst).Nodup := by
  have hcols := List.pairwise_map.mp h.nodup_selected_cols
  refine List.pairwise_map.mpr (hcols.imp_of_mem ?_)
  intro cell cell' hc hc' hne he
  have hr := (hm.inverse _ _).mpr (h.row?_of_mem hc)
  rw [he, (hm.inverse _ _).mpr (h.row?_of_mem hc')] at hr
  exact hne (Option.some.inj hr).symm

theorem lt_of_mem_rows (hm : m.Paired n) (h : Chain m col prepared selected last) {row : Nat}
    (hr : row ∈ selected.map Prod.fst) : row < n ∧ (m.col? row).isSome := by
  obtain ⟨cell, hc, rfl⟩ := List.mem_map.mp hr
  have hcol := (hm.inverse _ _).mpr (h.row?_of_mem hc)
  exact ⟨hm.row_lt hcol, Option.isSome_iff_exists.mpr ⟨_, hcol⟩⟩

/-- A free row before a chain makes no row come twice. -/
theorem nodup_cons_rows (hm : m.Paired n) (h : Chain m col prepared selected last)
    (hfree : m.col? row = none) : (row :: selected.map Prod.fst).Nodup := by
  refine List.nodup_cons.mpr ⟨fun hmem => ?_, h.nodup_rows hm⟩
  have hsome := (h.lt_of_mem_rows hm hmem).2
  rw [hfree] at hsome
  contradiction

end Chain

/-- Rows, the latest first, each with a prepared zero whose column is free or selected in an earlier
row. -/
def Traced (m : Matching Nat) : List Nat → Prop
  | [] => True
  | row :: rest =>
    (∃ col, m.mark? row = some col ∧ ∀ other, m.row? col = some other → other ∈ rest) ∧
      Traced m rest

theorem Traced.marked {order : List Nat} (h : Traced m order) (hr : row ∈ order) :
    (m.mark? row).isSome := by
  induction order with
  | nil => simp at hr
  | cons first rest ih =>
    obtain ⟨⟨col, hmark, -⟩, hrest⟩ := h
    rcases List.mem_cons.mp hr with rfl | hr
    · exact Option.isSome_iff_exists.mpr ⟨col, hmark⟩
    · exact ih hrest hr

theorem Traced.congr {m' : Matching Nat} {order : List Nat} (h : Traced m order)
    (hmark : ∀ row ∈ order, m'.mark? row = m.mark? row) (hrow : m'.row? = m.row?) :
    Traced m' order := by
  induction order with
  | nil => trivial
  | cons first rest ih =>
    obtain ⟨hfirst, hrest⟩ := h
    refine ⟨?_, ih hrest fun row hr => hmark row (List.mem_cons_of_mem _ hr)⟩
    rw [hmark first List.mem_cons_self, hrow]
    exact hfirst

/-- The rows go back to earlier ones only, so the chain comes to an end. -/
theorem Traced.exists_chain {order : List Nat} (h : Traced m order)
    (hcol : ∀ row, m.row? col = some row → row ∈ order) :
    ∃ prepared selected last, Chain m col prepared selected last := by
  induction order generalizing col with
  | nil =>
    have hfree : m.row? col = none :=
      Option.eq_none_iff_forall_ne_some.mpr fun row hr => List.not_mem_nil (hcol row hr)
    exact ⟨_, _, _, .stop hfree⟩
  | cons first rest ih =>
    obtain ⟨⟨next, hmark, hnext⟩, hrest⟩ := h
    by_cases hfirst : m.row? col = some first
    · obtain ⟨prepared, selected, last, hchain⟩ := ih hrest hnext
      exact ⟨_, _, _, .step hfirst hmark hchain⟩
    · refine ih hrest fun row hr => ?_
      rcases List.mem_cons.mp (hcol row hr) with rfl | hmem
      · exact absurd hr hfirst
      · exact hmem

end OptimalAssignment.Matching
