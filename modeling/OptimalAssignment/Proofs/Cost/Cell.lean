import Mathlib
import OptimalAssignment.Cost.Grid

/-!
Grids cell by cell. A square grid has a value in every cell between its bounds and nowhere else;
each operation on a grid is described by what it does to the value of one cell.
-/
namespace OptimalAssignment.Grid

variable {α β γ δ : Type} {n : Nat} {g : Grid α} {i j : Nat}

theorem cell?_eq_some_iff {x : α} :
    g.cell? i j = some x ↔ ∃ row, g[i]? = some row ∧ row[j]? = some x := by
  simp [cell?, Option.bind_eq_some_iff]

theorem IsSquare.row_length (hg : g.IsSquare n) {row : List α} (h : g[i]? = some row) :
    row.length = n :=
  hg.2 row (List.mem_of_getElem? h)

theorem IsSquare.exists_row (hg : g.IsSquare n) (hi : i < n) :
    ∃ row, g[i]? = some row ∧ row.length = n := by
  have hi' : i < g.length := by rw [hg.1]; exact hi
  exact ⟨g[i], List.getElem?_eq_getElem hi', hg.2 _ (List.getElem_mem hi')⟩

theorem IsSquare.exists_cell (hg : g.IsSquare n) (hi : i < n) (hj : j < n) :
    ∃ x, g.cell? i j = some x := by
  obtain ⟨row, hrow, hlen⟩ := hg.exists_row hi
  exact ⟨row[j], cell?_eq_some_iff.mpr ⟨row, hrow, List.getElem?_eq_getElem (by omega)⟩⟩

theorem IsSquare.lt_of_cell? (hg : g.IsSquare n) {x : α} (h : g.cell? i j = some x) :
    i < n ∧ j < n := by
  obtain ⟨row, hrow, hx⟩ := cell?_eq_some_iff.mp h
  obtain ⟨hi, -⟩ := List.getElem?_eq_some_iff.mp hrow
  obtain ⟨hj, -⟩ := List.getElem?_eq_some_iff.mp hx
  rw [hg.1] at hi
  rw [hg.row_length hrow] at hj
  exact ⟨hi, hj⟩

theorem mem_flatten_iff {x : α} : x ∈ g.flatten ↔ ∃ i j, g.cell? i j = some x := by
  constructor
  · intro h
    obtain ⟨row, hrow, hx⟩ := List.mem_flatten.mp h
    obtain ⟨i, hi⟩ := List.mem_iff_getElem?.mp hrow
    obtain ⟨j, hj⟩ := List.mem_iff_getElem?.mp hx
    exact ⟨i, j, cell?_eq_some_iff.mpr ⟨row, hi, hj⟩⟩
  · rintro ⟨i, j, h⟩
    obtain ⟨row, hrow, hx⟩ := cell?_eq_some_iff.mp h
    exact List.mem_flatten.mpr ⟨row, List.mem_of_getElem? hrow, List.mem_of_getElem? hx⟩

/-- The value of a cell; zero where there is none. -/
def entry [Zero α] (g : Grid α) (i j : Nat) : α :=
  (g.cell? i j).getD 0

theorem entry_eq [Zero α] {x : α} (h : g.cell? i j = some x) : g.entry i j = x := by
  rw [entry, h, Option.getD_some]

theorem IsSquare.cell?_eq [Zero α] (hg : g.IsSquare n) (hi : i < n) (hj : j < n) :
    g.cell? i j = some (g.entry i j) := by
  obtain ⟨x, hx⟩ := hg.exists_cell hi hj
  rw [entry_eq hx, hx]

/-! ### Maps -/

theorem cell?_map (f : α → β) : (Grid.map f g).cell? i j = (g.cell? i j).map f := by
  simp only [cell?, Grid.map, List.getElem?_map]
  cases g[i]? <;> simp

theorem isSquare_map (hg : g.IsSquare n) (f : α → β) : (Grid.map f g).IsSquare n := by
  constructor
  · simp [Grid.map, hg.1]
  · intro row hrow
    obtain ⟨row', hrow', rfl⟩ := List.mem_map.mp hrow
    simp [hg.2 row' hrow']

theorem isSquare_of_map {f : α → β} (h : (Grid.map f g).IsSquare n) : g.IsSquare n := by
  constructor
  · rw [← h.1, Grid.map, List.length_map]
  · intro row hrow
    rw [← h.2 _ (List.mem_map_of_mem hrow), List.length_map]

variable {f : β → γ → α → δ} {rowLabels : List β} {colLabels : List γ}

theorem cell?_mapLabelled_eq_some_iff {y : δ} :
    (mapLabelled f rowLabels colLabels g).cell? i j = some y ↔
      ∃ u v x, rowLabels[i]? = some u ∧ colLabels[j]? = some v ∧ g.cell? i j = some x ∧
        f u v x = y := by
  simp only [mapLabelled, cell?_eq_some_iff, List.getElem?_zipWith_eq_some]
  constructor
  · rintro ⟨-, ⟨u, row, hu, hrow, rfl⟩, hy⟩
    obtain ⟨v, x, hv, hx, rfl⟩ := List.getElem?_zipWith_eq_some.mp hy
    exact ⟨u, v, x, hu, hv, ⟨row, hrow, hx⟩, rfl⟩
  · rintro ⟨u, v, x, hu, hv, ⟨row, hrow, hx⟩, rfl⟩
    exact ⟨_, ⟨u, row, hu, hrow, rfl⟩, List.getElem?_zipWith_eq_some.mpr ⟨v, x, hv, hx, rfl⟩⟩

theorem isSquare_mapLabelled (hg : g.IsSquare n) (hr : rowLabels.length = n)
    (hc : colLabels.length = n) : (mapLabelled f rowLabels colLabels g).IsSquare n := by
  constructor
  · simp [mapLabelled, hr, hg.1]
  · intro row hrow
    obtain ⟨i, hi⟩ := List.mem_iff_getElem?.mp hrow
    obtain ⟨u, row', -, hrow', rfl⟩ := List.getElem?_zipWith_eq_some.mp hi
    simp [hc, hg.row_length hrow']

theorem mapLabelled_map {α' : Type} (k : α' → α) (g : Grid α') :
    mapLabelled f rowLabels colLabels (g.map k) =
      mapLabelled (fun u v x => f u v (k x)) rowLabels colLabels g := by
  simp only [mapLabelled, map, List.zipWith_map_right]

theorem map_mapLabelled {ε : Type} (k : δ → ε) (g : Grid α) :
    (mapLabelled f rowLabels colLabels g).map k =
      mapLabelled (fun u v x => k (f u v x)) rowLabels colLabels g := by
  simp only [mapLabelled, map, List.map_zipWith]

/-! ### The first cell of a kind -/

variable {p : α → Bool}

theorem search_eq_some {k : Nat} {g : Grid α} (h : firstWhere?.search p k g = some (i, j)) :
    ∃ i' x, i = k + i' ∧ g.cell? i' j = some x ∧ p x = true := by
  induction g generalizing k with
  | nil => simp [firstWhere?.search] at h
  | cons row rows ih =>
    rw [firstWhere?.search] at h
    cases hrow : row.findIdx? p with
    | some j' =>
      rw [hrow] at h
      obtain ⟨rfl, rfl⟩ := Prod.mk.inj (Option.some.inj h)
      obtain ⟨hj, hp, -⟩ := List.findIdx?_eq_some_iff_getElem.mp hrow
      exact ⟨0, row[j'], rfl, by simp [cell?, hj], hp⟩
    | none =>
      rw [hrow] at h
      obtain ⟨i', x, rfl, hx, hp⟩ := ih h
      exact ⟨i' + 1, x, by omega, by simpa [cell?] using hx, hp⟩

theorem search_ne_none {k : Nat} {g : Grid α} {x : α} (h : g.cell? i j = some x)
    (hp : p x = true) : firstWhere?.search p k g ≠ none := by
  induction g generalizing k i with
  | nil => simp [cell?] at h
  | cons row rows ih =>
    rw [firstWhere?.search]
    cases hrow : row.findIdx? p with
    | some j' => simp
    | none =>
      cases i with
      | zero =>
        have hx : row[j]? = some x := by simpa [cell?] using h
        have := List.findIdx?_eq_none_iff.mp hrow x (List.mem_of_getElem? hx)
        rw [hp] at this
        contradiction
      | succ i => exact ih (by simpa [cell?] using h)

theorem firstWhere?_eq_some (h : g.firstWhere? p = some (i, j)) :
    ∃ x, g.cell? i j = some x ∧ p x = true := by
  obtain ⟨i', x, rfl, hx, hp⟩ := search_eq_some h
  rw [Nat.zero_add]
  exact ⟨x, hx, hp⟩

theorem firstWhere?_ne_none {x : α} (h : g.cell? i j = some x) (hp : p x = true) :
    g.firstWhere? p ≠ none :=
  search_ne_none h hp

end OptimalAssignment.Grid
