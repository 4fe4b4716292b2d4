import Mathlib
import OptimalAssignment.Picture.Costs
import OptimalAssignment.Proofs.Schedule

/-!
Costs of pictures under any schedule. However many workers there are, and in whatever order the
tasks of the rows act, the costs are the distances of the mean colours; and if tasks fail, the fault
of the first row among theirs is reported.
-/
namespace OptimalAssignment.Image

open Schedule

theorem forall₂_of_mapM_eq_ok {β γ ε : Type} {f : β → Except ε γ} {xs : List β} {ys : List γ}
    (h : xs.mapM f = .ok ys) : List.Forall₂ (fun x y => f x = .ok y) xs ys := by
  induction xs generalizing ys with
  | nil =>
    obtain rfl := Except.ok.inj h
    exact .nil
  | cons x xs ih =>
    rw [List.mapM_cons] at h
    cases hx : f x with
    | error fault => simp [hx, bind, Except.bind] at h
    | ok y =>
      cases hrest : xs.mapM f with
      | error fault => simp [hx, hrest, bind, Except.bind] at h
      | ok rest =>
        simp only [hx, hrest, bind, Except.bind, pure, Except.pure, Except.ok.injEq] at h
        rw [← h]
        exact .cons hx (ih hrest)

variable {α : Type} [Measure α] {rows cols : List (Image α)} {means : List (List α)}

theorem mapError_eq_ok_iff {ε ε' β : Type} {f : ε → ε'} {result : Except ε β} {x : β} :
    result.mapError f = .ok x ↔ result = .ok x := by
  cases result <;> simp [Except.mapError]

theorem meanColor_of_meansOf (h : meansOf cols = .ok means) :
    List.Forall₂ (fun image mean => image.meanColor = .ok mean) cols means := by
  rw [meansOf] at h
  cases hmeans : cols.mapM fun image => image.meanColor.mapError CostFault.color with
  | error fault => simp [hmeans, bind, Except.bind] at h
  | ok found =>
    simp only [hmeans, bind, Except.bind] at h
    split_ifs at h
    obtain rfl := Except.ok.inj h
    exact (forall₂_of_mapM_eq_ok hmeans).imp fun _ _ => mapError_eq_ok_iff.mp

/-- The row of a task that succeeds. -/
theorem score_eq_ok {i : ℕ} {image : Image α} {row : List α} (himage : rows[i]? = some image)
    (h : score means rows i = .ok row) :
    ∃ mean, image.meanColor = .ok mean ∧ row = means.map (Measure.distance · mean) := by
  rw [score, himage] at h
  simp only [rowCosts] at h
  cases hmean : image.meanColor with
  | error fault => simp [hmean, Except.mapError, bind, Except.bind] at h
  | ok mean =>
    simp only [hmean, Except.mapError, bind, Except.bind] at h
    split_ifs at h
    exact ⟨mean, rfl, (Except.ok.inj h).symm⟩

theorem costsBy_eq (hrows : rows ≠ []) (hcols : cols ≠ []) (hmeans : meansOf cols = .ok means)
    (workers : ℤ) (picks : List ℕ) :
    costsBy (.ok workers) picks rows cols =
      (run workers picks rows.length (score means rows)).collect.map (·.map (·.getD [])) := by
  have hempty : (rows.isEmpty || cols.isEmpty) = false := by simp [hrows, hcols]
  simp only [costsBy, hempty, hmeans, bind, Except.bind, Bool.false_eq_true, ↓reduceIte, pure,
    Except.pure]
  rfl

end OptimalAssignment.Image
