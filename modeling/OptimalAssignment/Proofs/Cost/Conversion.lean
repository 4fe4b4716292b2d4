import OptimalAssignment.Proofs.Cost.Adjustment

/-!
Costs of one kind turned into costs of another. If a conversion keeps zero, minima and the test for
zero, then all that is found by comparing costs stays the same, and so does a value moved from cost
to cost, as long as the conversion respects taking it away and adding it.
-/
namespace OptimalAssignment

variable {α β : Type} [Scalar α] [Scalar β]

/-- A conversion of costs that keeps zero, minima and the test for zero. -/
structure Scalar.IsConversion (f : β → α) : Prop where
  map_zero : f 0 = 0
  map_lower : ∀ x y, f (lower x y) = lower (f x) (f y)
  isZero_map : ∀ x, isZero (f x) = isZero x

/-- Whether taking away and adding a value comes to the same before a conversion and after. -/
structure Scalar.Respects (f : β → α) (least : β) : Prop where
  map_sub : ∀ x, f (x - least) = f x - f least
  map_add : ∀ x, f (x + least) = f x + f least

variable {f : β → α}

namespace Scalar

/-- The least of a list that is not empty, through any function that keeps minima. -/
theorem least_map (hlower : ∀ x y, f (lower x y) = lower (f x) (f y)) {xs : List β}
    (hx : xs ≠ []) : least (xs.map f) = f (least xs) := by
  have hfold : ∀ (xs : List β) (x : β), (xs.map f).foldl lower (f x) = f (xs.foldl lower x) := by
    intro xs
    induction xs with
    | nil => exact fun _ => rfl
    | cons y xs ih =>
      intro x
      rw [List.map_cons, List.foldl_cons, List.foldl_cons, ← hlower, ih]
  cases xs with
  | nil => exact absurd rfl hx
  | cons x xs => exact hfold xs x

theorem IsConversion.refl : IsConversion (id : α → α) :=
  ⟨rfl, fun _ _ => rfl, fun _ => rfl⟩

theorem Respects.refl (least : α) : Respects id least :=
  ⟨fun _ => rfl, fun _ => rfl⟩

theorem IsConversion.map_least (hf : IsConversion f) (xs : List β) :
    least (xs.map f) = f (least xs) := by
  cases xs with
  | nil => exact hf.map_zero.symm
  | cons x xs => exact least_map hf.map_lower (List.cons_ne_nil x xs)

end Scalar

/-! ### Minima by lanes -/

namespace LaneMinimum

open Scalar

variable (hf : IsConversion f)
include hf

theorem map_later (kept x : β) : later (f kept) (f x) = f (later kept x) :=
  (hf.map_lower x kept).symm

theorem zipWith_later (xs ys : List β) :
    List.zipWith later (xs.map f) (ys.map f) = (List.zipWith later xs ys).map f := by
  simp only [List.zipWith_map, List.map_zipWith, map_later hf]

theorem map_deal (lanes xs : List β) : deal (lanes.map f) (xs.map f) = (deal lanes xs).map f := by
  fun_induction deal lanes xs with
  | case1 lanes a b c d rest ih =>
    rw [← ih, ← zipWith_later hf]
    rfl
  | case2 lanes rest hrest =>
    have hdeal : deal (lanes.map f) (rest.map f) =
        List.zipWith later (lanes.map f) (rest.map f) ++ (lanes.map f).drop (rest.map f).length := by
      rcases rest with _ | ⟨a, _ | ⟨b, _ | ⟨c, _ | ⟨d, rest⟩⟩⟩⟩
      · rfl
      · rfl
      · rfl
      · rfl
      · exact absurd rfl (hrest a b c d rest)
    rw [hdeal, zipWith_later hf, List.length_map, ← List.map_drop, List.map_append]

theorem map_leastLate (xs : List β) : leastLate (xs.map f) = f (leastLate xs) := by
  cases xs with
  | nil => exact hf.map_zero.symm
  | cons x xs =>
    induction xs generalizing x with
    | nil => rfl
    | cons y xs ih =>
      have hstep := ih (later x y)
      rw [List.map_cons, ← map_later hf] at hstep
      exact hstep

theorem map_least (xs : List β) : least (xs.map f) = f (least xs) := by
  match xs with
  | [] => exact map_leastLate hf []
  | [x] => exact map_leastLate hf [x]
  | [x, y] => exact map_leastLate hf [x, y]
  | [x, y, z] => exact map_leastLate hf [x, y, z]
  | a :: b :: c :: d :: rest =>
    have hdeal := map_deal hf [a, b, c, d] rest
    rw [List.map_cons, List.map_cons, List.map_cons, List.map_cons, least, least,
      ← map_leastLate hf, ← hdeal]
    rfl

end LaneMinimum

/-! ### Grids -/

open Scalar Grid

/-- The columns lose their values before the conversion or after. -/
theorem zipWith_sub_map (xs : List β) {ys : List β} (h : ∀ y ∈ ys, Respects f y) :
    List.zipWith (· - ·) (xs.map f) (ys.map f) = (List.zipWith (· - ·) xs ys).map f := by
  induction ys generalizing xs with
  | nil => simp
  | cons y ys ih =>
    obtain ⟨hy, hys⟩ := List.forall_mem_cons.mp h
    cases xs with
    | nil => rfl
    | cons x xs =>
      rw [List.map_cons, List.map_cons, List.zipWith_cons_cons, ih xs hys, ← hy.map_sub,
        List.zipWith_cons_cons, List.map_cons]

namespace CostMatrix

variable {c : Coverage} {g : Grid β}

theorem shift_map {least : β} (hleast : Respects f least) :
    shift c (f least) (g.map f) = (shift c least g).map f := by
  simp only [shift, mapLabelled_map, map_mapLabelled, apply_ite f, hleast.map_sub, hleast.map_add]

variable (hf : IsConversion f)
include hf

theorem colMinima_map (g : Grid β) : colMinima (g.map f) = (colMinima g).map f := by
  have hfold : ∀ (rows : List (List β)) (row : List β),
      (rows.map (List.map f)).foldl (List.zipWith lower) (row.map f) =
        (rows.foldl (List.zipWith lower) row).map f := by
    intro rows
    induction rows with
    | nil => exact fun _ => rfl
    | cons next rows ih =>
      intro row
      rw [List.map_cons, List.foldl_cons, List.foldl_cons, ← ih]
      simp only [List.zipWith_map, List.map_zipWith, hf.map_lower]
  cases g with
  | nil => rfl
  | cons row rows => exact hfold rows row

theorem zeroMask_map (m : CostMatrix β) :
    zeroMask ⟨m.given.map f, m.values.map f⟩ = m.zeroMask := by
  simp only [zeroMask, Grid.map, List.map_map, Function.comp_def, hf.isZero_map]

theorem lowerRows_map (hrows : ∀ row ∈ g, Respects f (least row)) :
    lowerRows (g.map f) = (lowerRows g).map f := by
  simp only [lowerRows, Grid.map, List.map_map]
  refine List.map_congr_left fun row hrow => ?_
  simp only [Function.comp_def, List.map_map, hf.map_least, (hrows row hrow).map_sub]

theorem lowerCols_map (hcols : ∀ x ∈ colMinima g, Respects f x) :
    lowerCols (g.map f) = (lowerCols g).map f := by
  simp only [lowerCols, colMinima_map hf]
  simp only [Grid.map, List.map_map]
  exact List.map_congr_left fun row _ => zipWith_sub_map row hcols

/-- Both lowerings together. -/
theorem reduce_map (hrows : ∀ row ∈ g, Respects f (least row))
    (hcols : ∀ x ∈ colMinima (lowerRows g), Respects f x) :
    (ofGrid (g.map f)).reduce.1.values = (ofGrid g).reduce.1.values.map f := by
  have hlowered : lowerCols (lowerRows (g.map f)) = (lowerCols (lowerRows g)).map f := by
    rw [lowerRows_map hf hrows, lowerCols_map hf hcols]
  exact hlowered

theorem uncoveredZero?_map : uncoveredZero? c (g.map f) = uncoveredZero? c g := by
  have hmask : (g.map f).map isZero = g.map isZero := by
    simp only [Grid.map, List.map_map, Function.comp_def, hf.isZero_map]
  rw [uncoveredZero?, hmask, uncoveredZero?]

theorem leastUncovered_map : leastUncovered c (g.map f) = f (leastUncovered c g) := by
  have hopen : mapLabelled (fun row col x => if row || col then none else some x) c.rows c.cols
      (g.map f) = Grid.map (Option.map f)
        (mapLabelled (fun row col x => if row || col then none else some x) c.rows c.cols g) := by
    simp only [mapLabelled_map, map_mapLabelled, apply_ite (Option.map f), Option.map_none,
      Option.map_some]
  rw [leastUncovered, leastUncovered, ← LaneMinimum.map_least hf, hopen, Grid.map,
    ← List.map_flatten, List.filterMap_map, List.map_filterMap]
  simp only [Function.comp_def, id]

end CostMatrix

end OptimalAssignment
