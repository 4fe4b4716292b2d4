import Mathlib
import OptimalAssignment.Cost.TableReading

/-!
Reading rows of numbers. Both manners of building an array from rows that are equally long give the
numbers of the rows one after the other, with the number of rows and their length as lengths of the
axes, provided that the kind of element keeps the numbers as they are. Without rows there is only
one axis, unless lengths are given.
-/
namespace OptimalAssignment

variable {β γ ε : Type} {xs : List β} {ys : List γ}

theorem forall₂_of_mapM {f : β → Option γ} (h : xs.mapM f = some ys) :
    List.Forall₂ (fun x y => f x = some y) xs ys := by
  induction xs generalizing ys with
  | nil =>
    obtain rfl : [] = ys := by simpa using h
    exact .nil
  | cons x xs ih =>
    simp only [List.mapM_cons, Option.bind_eq_bind, Option.bind_eq_some_iff] at h
    obtain ⟨y, hy, rest, hrest, hys⟩ := h
    obtain rfl := Option.some.inj hys
    exact .cons hy (ih hrest)

theorem mapM_of_forall₂ {f : β → Except ε γ} (h : List.Forall₂ (fun x y => f x = .ok y) xs ys) :
    xs.mapM f = .ok ys := by
  induction h with
  | nil => rfl
  | cons hy _ ih =>
    rw [List.mapM_cons, hy, ih]
    rfl

theorem exists_mem_of_forall₂ {r : β → γ → Prop} {x : β} (h : List.Forall₂ r xs ys)
    (hx : x ∈ xs) : ∃ y ∈ ys, r x y := by
  induction h with
  | nil => cases hx
  | cons hr _ ih =>
    rcases List.mem_cons.mp hx with rfl | hrest
    · exact ⟨_, List.mem_cons_self, hr⟩
    · obtain ⟨y, hy, hxy⟩ := ih hrest
      exact ⟨y, List.mem_cons_of_mem _ hy, hxy⟩

/-- A value as an array keeps it, in the lenient manner or in the strict one. -/
def Element.keep (lenient : Bool) (kind : Element) (v : Value) : Except Rejection Float :=
  if lenient then kind.keepLenient v else kind.keepStrict v

namespace Table

variable {kind : Element} {lenient : Bool} {items rows : List Value} {list : List Float}
  {cells : List (List Value)} {lists : List (List Float)} {v : Value} {x : Float} {width : ℕ}

/-- Whether values are read as numbers, one by one. -/
abbrev Reads (items : List Value) (list : List Float) : Prop :=
  List.Forall₂ (fun v x => number? v = some x) items list

/-- Whether a kind of element keeps all numbers in rows as they are. -/
def KeepsNumbers (lenient : Bool) (kind : Element) (rows : List Value) : Prop :=
  ∀ items, .list items ∈ rows → ∀ v ∈ items, ∀ x, number? v = some x → kind.keep lenient v = .ok x

/-! ### Single numbers -/

/-- Floats keep all numbers that can be read. -/
theorem keep_double (h : number? v = some x) : Element.double.keep lenient v = .ok x := by
  match v, h with
  | .atom (.truth b), h =>
    obtain rfl := Option.some.inj h
    cases lenient <;> rfl
  | .atom (.real y), h =>
    obtain rfl := Option.some.inj h
    cases lenient <;> rfl
  | .atom (.integer n), h =>
    have hn : Element.widen n = .ok x := by
      cases hwiden : Element.widen n <;> simp_all [number?, Except.toOption]
    cases lenient <;>
      simp [Element.keep, Element.keepLenient, Element.lenientFloat, Element.keepStrict, hn,
        Except.map, Element.keepFloat, Element.keepRounded]

theorem keepsNumbers_double : KeepsNumbers lenient .double rows :=
  fun _ _ _ _ _ => keep_double

/-- A number has no parts. -/
theorem atom_of_number? (h : number? v = some x) :
    listShape v = [] ∧ hasShape [] v = true ∧ strictShape.firstText? v = none := by
  match v, h with
  | .atom (.truth b), _ => exact ⟨rfl, rfl, rfl⟩
  | .atom (.real y), _ => exact ⟨rfl, rfl, rfl⟩
  | .atom (.integer n), _ => exact ⟨rfl, rfl, rfl⟩

/-! ### Rows of numbers -/

theorem exists_cells (h : rows.mapM numbers? = some lists) :
    ∃ cells : List (List Value), rows = cells.map .list ∧ List.Forall₂ Reads cells lists := by
  have hrows := forall₂_of_mapM h
  clear h
  induction hrows with
  | nil => exact ⟨[], rfl, .nil⟩
  | @cons row list rows lists hrow _ ih =>
    obtain ⟨cells, rfl, hcells⟩ := ih
    cases row with
    | list items => exact ⟨items :: cells, rfl, .cons (forall₂_of_mapM hrow) hcells⟩
    | _ => contradiction

section Rectangle

variable (hcells : List.Forall₂ Reads cells lists) (hwidth : ∀ list ∈ lists, list.length = width)
include hcells hwidth

theorem length_of_mem (hitems : items ∈ cells) : items.length = width := by
  obtain ⟨list, hlist, hread⟩ := exists_mem_of_forall₂ hcells hitems
  exact hread.length_eq.trans (hwidth list hlist)

theorem listShape_rows (hne : cells ≠ []) :
    listShape (.list (cells.map .list)) = [cells.length, width] := by
  cases hcells with
  | nil => contradiction
  | @cons items list cells lists hrow hrest =>
    have hlength : items.length = width := hrow.length_eq.trans (hwidth list List.mem_cons_self)
    rw [List.map_cons, listShape, List.length_map, List.length_cons]
    cases hrow with
    | nil => rw [listShape, ← hlength, List.length_nil]
    | cons hv _ => rw [listShape, (atom_of_number? hv).1, ← hlength, List.length_cons]

theorem hasShape_rows : hasShape [cells.length, width] (.list (cells.map .list)) = true := by
  simp only [hasShape, List.length_map, BEq.rfl, Bool.true_and, List.all_map, List.all_eq_true]
  intro items hitems
  simp only [Function.comp_apply, hasShape, length_of_mem hcells hwidth hitems, BEq.rfl,
    Bool.true_and, List.all_eq_true]
  intro v hv
  obtain ⟨list, -, hread⟩ := exists_mem_of_forall₂ hcells hitems
  obtain ⟨x, -, hx⟩ := exists_mem_of_forall₂ hread hv
  exact (atom_of_number? hx).2.1

end Rectangle

theorem firstText?_rows (hcells : List.Forall₂ Reads cells lists) :
    strictShape.firstText? (.list (cells.map .list)) = none := by
  cases hcells with
  | nil => rfl
  | cons hrow _ =>
    cases hrow with
    | nil => rfl
    | cons hv _ => exact (atom_of_number? hv).2.2

section Strict

variable {keep : Value → Except Rejection Float}

theorem strictCells_list (shape : List ℕ) : strictCells keep (items.length :: shape) (.list items) =
    (items.mapM (strictCells keep shape)).map List.flatten := by
  rw [strictCells]
  change (if items.length = items.length then _ else _) = _
  rw [if_pos rfl]
  cases items.mapM (strictCells keep shape) <;> rfl

theorem strictCells_row (hkeep : List.Forall₂ (fun v x => keep v = .ok x) items list) :
    strictCells keep [items.length] (.list items) = .ok list := by
  have hsingle : items.mapM (strictCells keep []) = .ok (list.map fun x => [x]) := by
    refine mapM_of_forall₂ (List.forall₂_map_right_iff.mpr (hkeep.imp fun v x hx => ?_))
    rw [strictCells, hx]
    rfl
  rw [strictCells_list, hsingle, Except.map, ← List.flatMap_def, List.flatMap_singleton']

theorem strictCells_rows
    (hkeep : List.Forall₂ (List.Forall₂ fun v x => keep v = .ok x) cells lists)
    (hwidth : ∀ list ∈ lists, list.length = width) :
    strictCells keep [cells.length, width] (.list (cells.map .list)) = .ok lists.flatten := by
  have hrows : (cells.map .list).mapM (strictCells keep [width]) = .ok lists := by
    refine mapM_of_forall₂ (List.forall₂_map_left_iff.mpr ?_)
    induction hkeep with
    | nil => exact .nil
    | cons hrow _ ih =>
      obtain ⟨hlength, hrest⟩ := List.forall_mem_cons.mp hwidth
      refine .cons ?_ (ih hrest)
      rw [← hlength, ← hrow.length_eq]
      exact strictCells_row hrow
  rw [show cells.length = (cells.map Value.list).length from (List.length_map _).symm,
    strictCells_list, hrows, Except.map]

end Strict

theorem keeps_cells (hcells : List.Forall₂ Reads cells lists)
    (hkeep : KeepsNumbers lenient kind (cells.map .list)) :
    List.Forall₂ (List.Forall₂ fun v x => kind.keep lenient v = .ok x) cells lists := by
  have hrows (items : List Value) (hitems : items ∈ cells) :=
    hkeep items (List.mem_map_of_mem hitems)
  refine ((List.forall₂_and_left _ _).mpr ⟨hrows, hcells⟩).imp fun items list hrow => ?_
  refine ((List.forall₂_and_left _ _).mpr hrow).imp fun v x hv => ?_
  exact hv.1 x hv.2

theorem length_flatten_rows (hwidth : ∀ list ∈ lists, list.length = width) :
    lists.flatten.length = lists.length * width := by
  rw [List.length_flatten, List.map_congr_left hwidth, List.map_const', List.sum_replicate,
    smul_eq_mul]

/-- The lengths of the axes may be given, too. -/
theorem reshape_rows (hwidth : ∀ list ∈ lists, list.length = width) :
    reshape lists.flatten [(lists.length : ℤ), width] = .ok [lists.length, width] := by
  have hknown (n : ℕ) : (n : ℤ) ≠ -1 := by omega
  have hcount : List.count (-1) [(lists.length : ℤ), width] = 0 := by
    simp [hknown]
  have hfits : [(lists.length : ℤ), width].foldl (fun n k => n * k.toNat) 1 =
      lists.flatten.length := by
    rw [length_flatten_rows hwidth]
    simp
  have hfilter : [(lists.length : ℤ), width].filter (· ≠ -1) = [(lists.length : ℤ), width] := by
    simp [hknown]
  simp only [reshape, hcount, hfilter, hfits, if_true]
  rw [if_pos ⟨trivial, by simp⟩]
  simp [hknown]

theorem leaves_rows : leaves 2 (.list (cells.map .list)) = cells.flatten := by
  simp only [leaves, List.flatMap_map, List.flatMap_singleton', List.flatMap_id']

section Rectangle

variable (hcells : List.Forall₂ Reads cells lists) (hwidth : ∀ list ∈ lists, list.length = width)
  (hne : cells ≠ [])
include hcells hwidth hne

theorem lenientArray_rows (hkeep : KeepsNumbers true kind (cells.map .list)) :
    lenientArray kind (.list (cells.map .list)) = .ok ([cells.length, width], lists.flatten) := by
  have hkept : cells.flatten.mapM kind.keepLenient = .ok lists.flatten :=
    mapM_of_forall₂ (List.rel_flatten (keeps_cells hcells hkeep))
  simp only [lenientArray, listShape_rows hcells hwidth hne, hasShape_rows hcells hwidth,
    List.length_cons, List.length_nil, Nat.zero_add, Nat.reduceAdd, leaves_rows, hkept]
  rfl

theorem strictArray_rows (hkeep : KeepsNumbers false kind (cells.map .list)) :
    strictArray kind (.list (cells.map .list)) = .ok ([cells.length, width], lists.flatten) := by
  have hshape : strictShape (.list (cells.map .list)) = .ok [cells.length, width] := by
    rw [strictShape, firstText?_rows hcells, listShape_rows hcells hwidth hne]
    rfl
  have hkept : strictCells kind.keepStrict [cells.length, width] (.list (cells.map .list)) =
      .ok lists.flatten :=
    strictCells_rows (keeps_cells hcells hkeep) hwidth
  have hextent : extent [cells.length, width] = lists.flatten.length := by
    rw [length_flatten_rows hwidth, ← hcells.length_eq]
    simp [extent]
  simp only [strictArray, strictArrayBy, hshape, hextent, bind, Except.bind]
  -- nothing is looked at if there are no cells
  split_ifs with hnone
  · rw [List.length_eq_zero_iff.mp hnone]
    rfl
  · rw [hkept]
    rfl

end Rectangle

/-- The axes of an array of rows: there is only one if there are no rows. -/
def rowAxes (count width : ℕ) : List ℕ :=
  if count = 0 then [0] else [count, width]

section Arrays

variable (hcells : List.Forall₂ Reads cells lists) (hwidth : ∀ list ∈ lists, list.length = width)
  (hkeep : KeepsNumbers lenient kind (cells.map .list))
include hcells hwidth hkeep

/-- Both manners of building an array from rows that are equally long give the numbers of the rows
one after the other. -/
theorem builtArray_rows : builtArray lenient kind (.list (cells.map .list)) =
    .ok (rowAxes lists.length width, lists.flatten) := by
  rw [← hcells.length_eq]
  rcases eq_or_ne cells [] with rfl | hne
  · obtain rfl : lists = [] := List.forall₂_nil_left_iff.mp hcells
    cases lenient <;> rfl
  · rw [rowAxes, if_neg (by simpa using hne)]
    cases lenient with
    | true => exact lenientArray_rows hcells hwidth hne hkeep
    | false => exact strictArray_rows hcells hwidth hne hkeep

theorem ofArray_rows : ofArray lenient kind none (.list (cells.map .list)) =
    .array (rowAxes lists.length width) lists.flatten := by
  rw [ofArray, arrayOf, builtArray_rows hcells hwidth hkeep]
  rfl

theorem ofArray_rows_reshaped :
    ofArray lenient kind (some [(lists.length : ℤ), width]) (.list (cells.map .list)) =
      .array [lists.length, width] lists.flatten := by
  rw [ofArray, arrayOf, builtArray_rows hcells hwidth hkeep]
  simp only [reshape_rows hwidth, bind, Except.bind]
  rfl

end Arrays

end Table

end OptimalAssignment
