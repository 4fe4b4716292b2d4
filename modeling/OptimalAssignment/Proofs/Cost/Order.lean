import Mathlib
import OptimalAssignment.Cost.Lanes

/-!
Scalars in a linear order, and the least value of a list. The laws ask for very little: addition and
subtraction need not undo each other, so they hold of rounded arithmetic as well as of exact
arithmetic. Both ways in which the solver takes minima give the least value of the list.
-/
namespace OptimalAssignment

/-- What is asked of the arithmetic on costs. -/
class LawfulScalar (α : Type) [Scalar α] [LinearOrder α] : Prop where
  lower_eq_min (a b : α) : Scalar.lower a b = min a b
  isZero_iff (a : α) : Scalar.isZero a = true ↔ a = 0
  sub_self (a : α) : a - a = 0
  sub_zero (a : α) : a - 0 = a
  sub_nonneg {a b : α} (h : b ≤ a) : 0 ≤ a - b
  add_nonneg {a b : α} (ha : 0 ≤ a) (hb : 0 ≤ b) : 0 ≤ a + b

variable {α : Type} [LinearOrder α]

/-- Lists with the same lower bounds have the same least value. -/
theorem min?_congr {xs ys : List α} (hx : xs ≠ []) (hy : ys ≠ [])
    (h : ∀ a, (∀ x ∈ xs, a ≤ x) ↔ ∀ y ∈ ys, a ≤ y) : xs.min? = ys.min? := by
  obtain ⟨a, ha⟩ := Option.ne_none_iff_exists'.mp fun he => hx (List.min?_eq_none_iff.mp he)
  obtain ⟨b, hb⟩ := Option.ne_none_iff_exists'.mp fun he => hy (List.min?_eq_none_iff.mp he)
  have hab : a ≤ b := (List.le_min?_iff hb).mpr ((h a).mp ((List.le_min?_iff ha).mp le_rfl))
  have hba : b ≤ a := (List.le_min?_iff ha).mpr ((h b).mpr ((List.le_min?_iff hb).mp le_rfl))
  rw [ha, hb, le_antisymm hab hba]

variable [Scalar α] [LawfulScalar α]

theorem lower_eq : (Scalar.lower : α → α → α) = min := by
  funext a b
  exact LawfulScalar.lower_eq_min a b

namespace Scalar

theorem min?_eq_least {xs : List α} (hx : xs ≠ []) : xs.min? = some (least xs) := by
  cases xs with
  | nil => exact absurd rfl hx
  | cons x xs => simp only [least, lower_eq, List.min?_cons']

theorem least_mem {xs : List α} (hx : xs ≠ []) : least xs ∈ xs :=
  (List.min?_eq_some_iff.mp (min?_eq_least hx)).1

theorem least_le {xs : List α} {x : α} (hx : x ∈ xs) : least xs ≤ x :=
  (List.min?_eq_some_iff.mp (min?_eq_least (List.ne_nil_of_mem hx))).2 x hx

end Scalar

namespace LaneMinimum

theorem later_eq : (later : α → α → α) = min := by
  funext a b
  rw [later, lower_eq, min_comm]

/-- Dealing values out to four lanes keeps the least of all. -/
theorem min?_deal {lanes xs : List α} (h : lanes.length = 4) :
    (deal lanes xs).min? = (lanes ++ xs).min? := by
  fun_induction deal lanes xs with
  | case1 lanes a b c d rest ih =>
    rw [ih (by simp [h])]
    obtain ⟨p, q, r, s, rfl⟩ := List.length_eq_four.mp h
    apply min?_congr (by simp) (by simp)
    intro z
    simp only [later_eq, List.zipWith_cons_cons, List.zipWith_nil_left, List.mem_append,
      List.mem_cons, List.not_mem_nil, or_false, or_imp, forall_and, forall_eq, le_min_iff]
    tauto
  | case2 lanes rest hrest =>
    obtain ⟨p, q, r, s, rfl⟩ := List.length_eq_four.mp h
    match rest with
    | [] | [_] | [_, _] | [_, _, _] =>
      apply min?_congr (by simp) (by simp)
      intro z
      simp [later_eq]
      try tauto
    | a :: b :: c :: d :: rest => exact absurd rfl (hrest a b c d rest)

theorem min?_eq_leastLate {xs : List α} (hx : xs ≠ []) : xs.min? = some (leastLate xs) := by
  cases xs with
  | nil => exact absurd rfl hx
  | cons x xs => simp only [leastLate, later_eq, List.min?_cons']

theorem min?_eq_least {xs : List α} (hx : xs ≠ []) : xs.min? = some (least xs) := by
  match xs with
  | [] => exact absurd rfl hx
  | [_] | [_, _] | [_, _, _] => exact min?_eq_leastLate hx
  | a :: b :: c :: d :: rest =>
    have hd : (deal [a, b, c, d] rest).min? = (a :: b :: c :: d :: rest).min? :=
      min?_deal rfl
    rw [← hd]
    apply min?_eq_leastLate
    intro he
    rw [he] at hd
    simp at hd

theorem least_mem {xs : List α} (hx : xs ≠ []) : least xs ∈ xs :=
  (List.min?_eq_some_iff.mp (min?_eq_least hx)).1

theorem least_le {xs : List α} {x : α} (hx : x ∈ xs) : least xs ≤ x :=
  (List.min?_eq_some_iff.mp (min?_eq_least (List.ne_nil_of_mem hx))).2 x hx

end LaneMinimum

end OptimalAssignment
