import Mathlib
import OptimalAssignment.Proofs.Cost.Conversion
import OptimalAssignment.Proofs.Cost.Reduction

/-!
Costs with infinities. Finite costs are rationals, exact up to a limit; what exceeds the limit is
the infinity of its sign, and a difference of equal infinities is undefined. Such costs obey no law,
but what is not finite stays so. Without the undefined cost, and with zero for a difference of equal
infinities, they are lawful.
-/
namespace OptimalAssignment

/-- Whether a rational does not exceed a limit; any does if there is none. -/
def Within : Option ℚ≥0 → ℚ → Prop
  | none, _ => True
  | some limit, x => |x| ≤ limit

instance : (limit : Option ℚ≥0) → (x : ℚ) → Decidable (Within limit x)
  | none, _ => inferInstanceAs (Decidable True)
  | some limit, x => inferInstanceAs (Decidable (|x| ≤ limit))

variable {limit : Option ℚ≥0} {x y : ℚ}

theorem Within.of_abs_le (h : Within limit y) (hx : |x| ≤ |y|) : Within limit x := by
  cases limit with
  | none => trivial
  | some limit => exact hx.trans h

theorem Within.neg (h : Within limit x) : Within limit (-x) :=
  h.of_abs_le (abs_neg x).le

theorem within_zero (limit : Option ℚ≥0) : Within limit 0 := by
  cases limit with
  | none => trivial
  | some limit => simp [Within]

/-- Rationals within a limit, the two infinities and the undefined cost. -/
inductive Extended (limit : Option ℚ≥0) where
  | below
  | finite (x : ℚ) (within : Within limit x)
  | above
  | undefined
deriving DecidableEq

namespace Extended

/-- A rational, or the infinity of its sign if it exceeds the limit. -/
def clip (x : ℚ) : Extended limit :=
  if h : Within limit x then finite x h else if 0 ≤ x then above else below

/-- The cost with the other sign. -/
def neg : Extended limit → Extended limit
  | below => above
  | finite x h => finite (-x) h.neg
  | above => below
  | undefined => undefined

/-- The sum of two costs; opposite infinities have none. -/
def add : Extended limit → Extended limit → Extended limit
  | undefined, _ | _, undefined => undefined
  | above, below | below, above => undefined
  | above, _ | _, above => above
  | below, _ | _, below => below
  | finite x _, finite y _ => clip (x + y)

/-- The lower of two costs; an undefined one wins. -/
def lower : Extended limit → Extended limit → Extended limit
  | undefined, _ | _, undefined => undefined
  | below, _ | _, below => below
  | above, a | a, above => a
  | finite x hx, finite y hy => if x ≤ y then finite x hx else finite y hy

/-- The rational that a finite cost is. -/
def value? : Extended limit → Option ℚ
  | finite x _ => some x
  | _ => none

instance : Scalar (Extended limit) where
  zero := finite 0 (within_zero limit)
  add := add
  sub a b := add a (neg b)
  lower := lower
  isZero a := a == finite 0 (within_zero limit)
  isFinite a := a.value?.isSome

/-- Infinities and undefined costs are shown as words. -/
instance : Legible (Extended limit) where
  brief
    | below => "-inf"
    | finite x _ => toString x
    | above => "inf"
    | undefined => "nan"

theorem zero_def : (0 : Extended limit) = finite 0 (within_zero limit) :=
  rfl

theorem add_def (a b : Extended limit) : a + b = add a b :=
  rfl

theorem sub_def (a b : Extended limit) : a - b = add a (neg b) :=
  rfl

theorem clip_of_within (h : Within limit x) : clip x = finite x h :=
  dif_pos h

theorem finite_sub_finite {hx : Within limit x} {hy : Within limit y} :
    finite x hx - finite y hy = clip (x - y) := by
  rw [sub_def, neg, add, ← sub_eq_add_neg]

/-! ### What is not finite stays so -/

variable {a b : Extended limit}

theorem isFinite_iff : Scalar.isFinite a = true ↔ ∃ x h, a = finite x h := by
  cases a with
  | finite x h => exact ⟨fun _ => ⟨x, h, rfl⟩, fun _ => rfl⟩
  | below | above | undefined => simp [Scalar.isFinite, value?]

theorem defined_of_isFinite (h : Scalar.isFinite a = true) : a ≠ undefined := by
  rintro rfl
  contradiction

theorem isFinite_of_isZero (h : Scalar.isZero a = true) : Scalar.isFinite a = true := by
  obtain rfl : a = 0 := beq_iff_eq.mp h
  rfl

/-- A finite sum has finite parts. -/
theorem isFinite_of_add (h : Scalar.isFinite (a + b) = true) :
    Scalar.isFinite a = true ∧ Scalar.isFinite b = true := by
  cases a <;> cases b <;> simp_all [add_def, add, Scalar.isFinite, value?]

theorem isFinite_of_neg (h : Scalar.isFinite (neg a) = true) : Scalar.isFinite a = true := by
  cases a <;> simp_all [neg, Scalar.isFinite, value?]

theorem isFinite_of_sub (h : Scalar.isFinite (a - b) = true) :
    Scalar.isFinite a = true ∧ Scalar.isFinite b = true := by
  obtain ⟨ha, hb⟩ := isFinite_of_add (a := a) (b := neg b) h
  exact ⟨ha, isFinite_of_neg hb⟩

/-- Whether a cost takes every minimum that it takes part in away from the finite costs. -/
def Sinks (a : Extended limit) : Prop :=
  a = below ∨ a = undefined

theorem Sinks.isFinite_eq_false (h : a.Sinks) : Scalar.isFinite a = false := by
  rcases h with rfl | rfl <;> rfl

theorem sinks_lower (h : a.Sinks ∨ b.Sinks) : (Scalar.lower a b).Sinks := by
  cases a <;> cases b <;> simp_all [Sinks, Scalar.lower, lower]

theorem sinks_least {xs : List (Extended limit)} {x : Extended limit} (hx : x ∈ xs)
    (h : x.Sinks) : (Scalar.least xs).Sinks := by
  have hfold : ∀ (rest : List (Extended limit)) (kept : Extended limit),
      (∃ y ∈ kept :: rest, y.Sinks) → (rest.foldl Scalar.lower kept).Sinks := by
    intro rest
    induction rest with
    | nil => simp
    | cons next rest ih =>
      rintro kept ⟨y, hy, hsinks⟩
      apply ih
      rcases List.mem_cons.mp hy with rfl | hy
      · exact ⟨_, List.mem_cons_self, sinks_lower (.inl hsinks)⟩
      · rcases List.mem_cons.mp hy with rfl | hy
        · exact ⟨_, List.mem_cons_self, sinks_lower (.inr hsinks)⟩
        · exact ⟨y, List.mem_cons_of_mem _ hy, hsinks⟩
  cases xs with
  | nil => contradiction
  | cons first rest => exact hfold rest first ⟨x, hx, h⟩

theorem add_finite_ne_undefined (h : a ≠ undefined) (hy : Within limit y) :
    a + finite y hy ≠ undefined := by
  cases a with
  | finite x hx =>
    rw [add_def, add, clip]
    split_ifs <;> simp
  | below | above => simp [add_def, add]
  | undefined => exact absurd rfl h

/-! ### Order -/

/-- The place of a cost: undefined ones first, then by size. -/
def rank : Extended limit → ℕ ×ₗ ℚ
  | undefined => toLex (0, 0)
  | below => toLex (1, 0)
  | finite x _ => toLex (2, x)
  | above => toLex (3, 0)

theorem rank_injective : Function.Injective (@rank limit) := by
  intro a b h
  cases a <;> cases b <;> simp_all [rank]

instance : LinearOrder (Extended limit) :=
  LinearOrder.lift' rank rank_injective

theorem le_iff : a ≤ b ↔ a.rank ≤ b.rank :=
  Iff.rfl

theorem finite_le_finite {hx : Within limit x} {hy : Within limit y} :
    finite x hx ≤ finite y hy ↔ x ≤ y := by
  simp [le_iff, rank, Prod.Lex.toLex_le_toLex]

theorem zero_le_above : (0 : Extended limit) ≤ above := by
  simp [le_iff, rank, zero_def, Prod.Lex.toLex_le_toLex]

theorem zero_le_clip (h : 0 ≤ x) : (0 : Extended limit) ≤ clip x := by
  rw [clip]
  split
  · exact finite_le_finite.mpr h
  · exact zero_le_above

theorem zero_le_sub (h : b ≤ a) : a - b = undefined ∨ 0 ≤ a - b := by
  match a, b with
  | finite x hx, finite y hy =>
    rw [finite_sub_finite]
    exact .inr (zero_le_clip (sub_nonneg.mpr (finite_le_finite.mp h)))
  | above, finite .. | above, below | finite .., below => exact .inr zero_le_above
  | below, finite .. | below, above | finite .., above =>
    simp [le_iff, rank, Prod.Lex.toLex_le_toLex] at h
  | undefined, _ | above, above | below, below => exact .inl rfl
  | finite .., undefined | above, undefined | below, undefined => exact .inl rfl

theorem zero_le_add (ha : 0 ≤ a) (hb : 0 ≤ b) : 0 ≤ a + b := by
  match a, b with
  | finite x hx, finite y hy =>
    exact zero_le_clip (add_nonneg (finite_le_finite.mp ha) (finite_le_finite.mp hb))
  | above, finite .. | finite .., above | above, above => exact zero_le_above
  | below, _ | undefined, _ => simp [le_iff, rank, zero_def, Prod.Lex.toLex_le_toLex] at ha
  | _, below | _, undefined => simp [le_iff, rank, zero_def, Prod.Lex.toLex_le_toLex] at hb

/-- The lower of two is the first of them in the order. -/
theorem lower_eq_min (a b : Extended limit) : lower a b = min a b := by
  rw [min_def]
  cases a <;> cases b <;> simp [lower, le_iff, rank, Prod.Lex.toLex_le_toLex]

end Extended

/-- Costs that are not undefined. -/
@[ext]
structure Line (limit : Option ℚ≥0) where
  cost : Extended limit
  defined : cost ≠ .undefined

namespace Line

open Extended

instance : LinearOrder (Line limit) :=
  LinearOrder.lift' cost fun _ _ => Line.ext

instance : Zero (Line limit) where
  zero := ⟨0, by simp [zero_def]⟩

/-- A cost, or zero in place of the undefined one. -/
def ofExtended (a : Extended limit) : Line limit :=
  if h : a = undefined then 0 else ⟨a, h⟩

instance : Scalar (Line limit) where
  add a b := ofExtended (a.cost + b.cost)
  sub a b := ofExtended (a.cost - b.cost)
  lower := min
  isZero a := Scalar.isZero a.cost
  isFinite a := Scalar.isFinite a.cost

theorem cost_zero : (0 : Line limit).cost = 0 :=
  rfl

theorem cost_ofExtended {a : Extended limit} (h : a ≠ undefined) : (ofExtended a).cost = a := by
  rw [ofExtended, dif_neg h]

variable {a b : Line limit}

theorem le_iff_cost : a ≤ b ↔ a.cost ≤ b.cost :=
  Iff.rfl

theorem sub_def (a b : Line limit) : a - b = ofExtended (a.cost - b.cost) :=
  rfl

theorem add_def (a b : Line limit) : a + b = ofExtended (a.cost + b.cost) :=
  rfl

theorem zero_le_ofExtended {a : Extended limit} (h : a = undefined ∨ 0 ≤ a) :
    0 ≤ ofExtended a := by
  rcases h with rfl | h
  · exact le_rfl
  · have hdefined : a ≠ undefined := by
      rintro rfl
      simp [le_iff, rank, zero_def, Prod.Lex.toLex_le_toLex] at h
    rw [le_iff_cost, cost_ofExtended hdefined]
    exact h

instance : LawfulScalar (Line limit) where
  lower_eq_min _ _ := rfl
  isZero_iff a := by
    rw [Line.ext_iff]
    exact beq_iff_eq
  sub_self a := by
    obtain ⟨a, ha⟩ := a
    cases a with
    | below | above => rfl
    | finite x hx =>
      rw [sub_def, finite_sub_finite, sub_self, clip_of_within (within_zero limit)]
      rfl
    | undefined => exact absurd rfl ha
  sub_zero a := by
    obtain ⟨a, ha⟩ := a
    cases a with
    | below | above => rfl
    | finite x hx =>
      rw [sub_def, cost_zero, zero_def, finite_sub_finite]
      simp only [sub_zero, clip_of_within hx]
      rfl
    | undefined => exact absurd rfl ha
  sub_nonneg h := zero_le_ofExtended (zero_le_sub h)
  add_nonneg ha hb := zero_le_ofExtended (.inr (zero_le_add ha hb))

/-! ### Lines as extended costs -/

theorem isConversion : Scalar.IsConversion (@cost limit) where
  map_zero := rfl
  map_lower a b := by
    have hlower : Scalar.lower a.cost b.cost = min a.cost b.cost := lower_eq_min a.cost b.cost
    rw [LawfulScalar.lower_eq_min, hlower]
    rcases le_total a b with h | h
    · rw [min_eq_left h, min_eq_left (le_iff_cost.mp h)]
    · rw [min_eq_right h, min_eq_right (le_iff_cost.mp h)]
  isZero_map _ := rfl

/-- A finite cost is taken away and added alike. -/
theorem respects (hb : Scalar.isFinite b = true) : Scalar.Respects cost b := by
  obtain ⟨y, hy, hcost⟩ := isFinite_iff.mp hb
  constructor
  · intro a
    refine cost_ofExtended ?_
    rw [hcost]
    exact add_finite_ne_undefined a.defined hy.neg
  · intro a
    refine cost_ofExtended ?_
    rw [hcost]
    exact add_finite_ne_undefined a.defined hy

theorem not_sinks_of_nonneg (h : 0 ≤ a) : ¬ a.cost.Sinks := by
  rintro (he | he)
  · simp [le_iff_cost, cost_zero, he, le_iff, rank, zero_def, Prod.Lex.toLex_le_toLex] at h
  · exact a.defined he

theorem isFinite_of_le (ha : ¬ a.cost.Sinks) (h : a ≤ b) (hb : Scalar.isFinite b = true) :
    Scalar.isFinite a = true := by
  obtain ⟨y, hy, hcost⟩ := isFinite_iff.mp hb
  obtain ⟨a, hdefined⟩ := a
  cases a with
  | finite x hx => rfl
  | below => exact absurd (.inl rfl) ha
  | above => simp [le_iff_cost, hcost, le_iff, rank, Prod.Lex.toLex_le_toLex] at h
  | undefined => exact absurd rfl hdefined

/-- Taking a cost away from one that is not lower leaves a finite cost finite. -/
theorem isFinite_sub (h0 : 0 ≤ b) (h : b ≤ a) (ha : Scalar.isFinite a = true) :
    Scalar.isFinite (a - b) = true := by
  have hb := isFinite_of_le (not_sinks_of_nonneg h0) h ha
  obtain ⟨x, hx, hxcost⟩ := isFinite_iff.mp ha
  obtain ⟨y, hy, hycost⟩ := isFinite_iff.mp hb
  rw [le_iff_cost, hycost] at h0 h
  rw [hxcost] at h
  have hy0 : 0 ≤ y := finite_le_finite.mp h0
  have hyx : y ≤ x := finite_le_finite.mp h
  have hwithin : Within limit (x - y) := hx.of_abs_le (by
    rw [abs_of_nonneg (sub_nonneg.mpr hyx), abs_of_nonneg (hy0.trans hyx)]
    exact sub_le_self x hy0)
  have hsub : (a - b).cost = finite (x - y) hwithin := by
    rw [(respects hb).map_sub, hxcost, hycost, finite_sub_finite, clip_of_within hwithin]
  exact isFinite_iff.mpr ⟨_, _, hsub⟩

/-- A grid without undefined costs is one of lines. -/
theorem exists_map_eq {g : Grid (Extended limit)} (h : ∀ row ∈ g, ∀ a ∈ row, a ≠ undefined) :
    ∃ g' : Grid (Line limit), g'.map cost = g := by
  have hrange : g ∈ Set.range (List.map (List.map (@cost limit))) := by
    rw [Set.range_list_map]
    intro row hrow
    rw [Set.range_list_map]
    exact fun a ha => ⟨⟨a, h row hrow a ha⟩, rfl⟩
  exact hrange

end Line

end OptimalAssignment
