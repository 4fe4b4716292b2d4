import Mathlib
import OptimalAssignment.Settings.Sections
import OptimalAssignment.Proofs.Settings.Entries

/-!
What names lead to in sections that are in use, before and after a name was set. Where each section
is found at one path only, nothing changes but at that path, behind it and on the way to it.
-/
namespace OptimalAssignment.Sections

variable {σ τ : Sections} {x y : Slot} {m n : Nat} {name last : String}
  {p q names rest : List String} {v : Given}

@[simp] theorem walk_nil : σ.walk [] x = some x := by
  rw [walk]

@[simp] theorem walk_cons_part : σ.walk (name :: names) (.part n) =
    (Keyed.find? (.text name) (σ.slots n)).bind (σ.walk names) := by
  rw [walk]

@[simp] theorem walk_cons_leaf {u : Value} : σ.walk (name :: names) (.leaf u) = none := by
  rw [walk]

theorem walk_append : σ.walk (p ++ q) x = (σ.walk p x).bind (σ.walk q) := by
  induction p generalizing x with
  | nil => simp
  | cons name p ih =>
    cases x with
    | leaf u => rfl
    | part n =>
      rw [List.cons_append, walk_cons_part, walk_cons_part, Option.bind_assoc]
      simp only [ih]

theorem exists_part_of_walk (h : σ.walk (name :: names) x = some y) : ∃ n, x = .part n := by
  cases x with
  | leaf u => simp at h
  | part n => exact ⟨n, rfl⟩

/-! ### Sections that are changed -/

theorem slots_of_getElem? {entries : Slots} (h : σ[n]? = some entries) : σ.slots n = entries := by
  rw [slots, h, Option.getD_some]

theorem slots_eq_of_getElem?_eq (h : τ[m]? = σ[m]?) : τ.slots m = σ.slots m := by
  rw [slots, slots, h]

/-- Whether a name in a section stands for something else now. Other sections are as they were, and
there may be more of them. -/
structure Changed (σ τ : Sections) (n : Nat) (name : String) (y : Slot) : Prop where
  here : τ.slots n = Keyed.put (.text name) y (σ.slots n)
  beside {m : Nat} (hm : m < σ.length) (h : n ≠ m) : τ[m]? = σ[m]?

theorem changed_put (hn : n < σ.length) (h : ∀ m < σ.length, τ[m]? = σ[m]?) :
    Changed σ (τ.put n (.text name) y) n name y where
  here := by simp [put, slots, h n hn, hn]
  beside hm hne := by simp [put, hne, h _ hm]

theorem assign_eq : assign n name v σ = (take v σ).2.put n (.text name) (take v σ).1 := rfl

/-- The sections when an empty one was made for a name in a section. -/
abbrev make (σ : Sections) (n : Nat) (name : String) : Sections :=
  σ.put n (.text name) (.part σ.length) ++ [[]]

@[simp] theorem length_put : (σ.put n (.text name) x).length = σ.length := by
  simp [put]

theorem getElem?_make (hm : m < σ.length) :
    (σ.make n name)[m]? = (σ.put n (.text name) (.part σ.length))[m]? :=
  List.getElem?_append_left (by simpa using hm)

theorem getElem?_make_of_ne (hm : m < σ.length) (h : n ≠ m) : (σ.make n name)[m]? = σ[m]? := by
  simp [getElem?_make hm, put, h]

theorem changed_make (hn : n < σ.length) :
    Changed σ (σ.make n name) n name (.part σ.length) where
  here := (slots_eq_of_getElem?_eq (getElem?_make hn)).trans
    (changed_put hn fun _ _ => rfl).here
  beside := getElem?_make_of_ne

@[simp] theorem slots_make_length : (σ.make n name).slots σ.length = [] := by
  simp [make, slots]

/-- A way goes on from the section that its first name stands for, or from one that is made. -/
theorem makeWay_cases (name : String) (names : List String) (n : Nat) (σ : Sections) :
    (∃ m, Keyed.find? (.text name) (σ.slots n) = some (.part m) ∧
      makeWay (name :: names) n σ = makeWay names m σ) ∨
    (∀ m, Keyed.find? (.text name) (σ.slots n) ≠ some (.part m)) ∧
      makeWay (name :: names) n σ = makeWay names σ.length (σ.make n name) := by
  rw [makeWay]
  split
  next m hm => exact .inl ⟨m, hm, rfl⟩
  next hslot => exact .inr ⟨hslot, rfl⟩

theorem walk_eq_none_of_slots (h : σ.slots n = []) : σ.walk (name :: names) (.part n) = none := by
  rw [walk_cons_part, h]
  rfl

/-- Making a way changes the sections on the way only. -/
theorem makeWay_beside (hm : m < σ.length)
    (h : ∀ p, p <+: names → σ.walk p (.part n) ≠ some (.part m)) :
    (makeWay names n σ).1 ≠ m ∧ (makeWay names n σ).2[m]? = σ[m]? ∧
      m < (makeWay names n σ).2.length := by
  have hne : n ≠ m := by simpa using h [] List.nil_prefix
  induction names generalizing σ n with
  | nil => exact ⟨hne, rfl, hm⟩
  | cons name names ih =>
    obtain ⟨k, hk, hstep⟩ | ⟨-, hstep⟩ := makeWay_cases name names n σ
    · have hway : ∀ p, p <+: names → σ.walk p (.part k) ≠ some (.part m) := fun p hp => by
        have hcons := h (name :: p) (List.cons_prefix_cons.mpr ⟨rfl, hp⟩)
        rwa [walk_cons_part, hk] at hcons
      rw [hstep]
      exact ih hm hway (by simpa using hway [] List.nil_prefix)
    · -- the section that was made is empty, so the rest of the way meets no older one
      have hfresh : σ.length ≠ m := hm.ne'
      rw [hstep, ← getElem?_make_of_ne hm hne]
      refine ih (hm.trans (by simp)) (fun p _ => ?_) hfresh
      obtain _ | ⟨next, p⟩ := p
      · simpa using hfresh
      · rw [walk_eq_none_of_slots slots_make_length]
        simp

/-! ### Sections that are found at one path only -/

/-- What names lead to depends on the keys that are looked up on the way. -/
theorem walk_congr (h : ∀ p name rest, q = p ++ name :: rest → ∀ m, σ.walk p x = some (.part m) →
    Keyed.find? (.text name) (τ.slots m) = Keyed.find? (.text name) (σ.slots m)) :
    τ.walk q x = σ.walk q x := by
  induction q generalizing x with
  | nil => simp
  | cons name q ih =>
    cases x with
    | leaf u => simp
    | part m =>
      rw [walk_cons_part, walk_cons_part, h [] name q rfl m walk_nil]
      cases hy : Keyed.find? (.text name) (σ.slots m) with
      | none => rfl
      | some y =>
        refine ih fun p next rest hq k hk => h (name :: p) next rest (by simp [hq]) k ?_
        rwa [walk_cons_part, hy]

/-- From a section on, each section is found at one path only. -/
structure Separate (σ : Sections) (x : Slot) : Prop where
  lt_length {p : List String} {n : Nat} (h : σ.walk p x = some (.part n)) : n < σ.length
  unique {p q : List String} {n : Nat} (h : σ.walk p x = some (.part n))
    (h' : σ.walk q x = some (.part n)) : p = q

namespace Separate

variable (h : Separate σ x) (hp : σ.walk p x = some (.part n)) (hτ : Changed σ τ n name y)
include h hp hτ

theorem walk_of_not_prefix (hq : ¬ p ++ [name] <+: q) : τ.walk q x = σ.walk q x := by
  refine walk_congr fun p' other rest hsplit m hm => ?_
  by_cases hmn : n = m
  · -- the changed section is met on the way `p` only, and the way goes on by another name
    subst hmn
    obtain rfl := h.unique hp hm
    have hne : ¬ (Atom.text name).same (.text other) := by
      rw [Atom.text_same_iff, Atom.text.injEq]
      rintro rfl
      exact hq ⟨rest, by simp [hsplit]⟩
    rw [hτ.here, Keyed.find?_put_text, if_neg hne]
  · rw [slots_eq_of_getElem?_eq (hτ.beside (h.lt_length hm) hmn)]

theorem walk_through : τ.walk (p ++ name :: rest) x = τ.walk rest y := by
  have hnot : ¬ p ++ [name] <+: p := fun hlead => by simpa using hlead.length_le
  rw [walk_append, h.walk_of_not_prefix hp hτ hnot, hp, Option.bind_some, walk_cons_part, hτ.here,
    Keyed.find?_put_text, if_pos (by simp), Option.bind_some]

omit hτ

/-! #### A section that is made -/

theorem walk_make_through : (σ.make n name).walk (p ++ name :: rest) x =
    (σ.make n name).walk rest (.part σ.length) :=
  h.walk_through hp (changed_make (h.lt_length hp))

variable (hslot : ∀ m, Keyed.find? (.text name) (σ.slots n) ≠ some (.part m))
include hslot

theorem walk_make_of_ne (hq : q ≠ p ++ [name]) : (σ.make n name).walk q x = σ.walk q x := by
  by_cases hlead : p ++ [name] <+: q
  · obtain ⟨rest, rfl⟩ := hlead
    obtain _ | ⟨next, rest⟩ := rest
    · simp at hq
    rw [List.append_assoc, List.singleton_append, h.walk_make_through hp,
      walk_eq_none_of_slots slots_make_length, walk_append, hp, Option.bind_some, walk_cons_part]
    cases hy : Keyed.find? (.text name) (σ.slots n) with
    | none => rfl
    | some y =>
      cases y with
      | leaf u => simp
      | part m => exact absurd hy (hslot m)
  · exact h.walk_of_not_prefix hp (changed_make (h.lt_length hp)) hlead

theorem make : Separate (σ.make n name) x := by
  have hmade : (σ.make n name).walk (p ++ [name]) x = some (.part σ.length) := by
    rw [h.walk_make_through hp, walk_nil]
  have hold {q : List String} {m : Nat} (hq : q ≠ p ++ [name])
      (hm : (σ.make n name).walk q x = some (.part m)) : m < σ.length := by
    rw [h.walk_make_of_ne hp hslot hq] at hm
    exact h.lt_length hm
  refine ⟨fun {q m} hm => ?_, fun {q r m} hm hm' => ?_⟩
  · by_cases hq : q = p ++ [name]
    · obtain rfl : σ.length = m := by simpa [hq, hmade] using hm
      simp
    · exact (hold hq hm).trans (by simp)
  · by_cases hq : q = p ++ [name] <;> by_cases hr : r = p ++ [name]
    · rw [hq, hr]
    · obtain rfl : σ.length = m := by simpa [hq, hmade] using hm
      exact absurd (hold hr hm') (lt_irrefl _)
    · obtain rfl : σ.length = m := by simpa [hr, hmade] using hm'
      exact absurd (hold hq hm) (lt_irrefl _)
    · rw [h.walk_make_of_ne hp hslot hq] at hm
      rw [h.walk_make_of_ne hp hslot hr] at hm'
      exact h.unique hm hm'

omit hslot

/-- A way that is made leads on from the section where it starts, and changes nothing beside it. -/
theorem makeWay (names : List String) : Separate (Sections.makeWay names n σ).2 x ∧
    (Sections.makeWay names n σ).2.walk (p ++ names) x =
      some (.part (Sections.makeWay names n σ).1) ∧
    ∀ q, ¬ q <+: p ++ names → (Sections.makeWay names n σ).2.walk q x = σ.walk q x := by
  induction names generalizing σ n p with
  | nil => exact ⟨h, by simpa [Sections.makeWay] using hp, fun q _ => rfl⟩
  | cons name names ih =>
    have hpath : p ++ name :: names = (p ++ [name]) ++ names := by simp
    obtain ⟨m, hm, hstep⟩ | ⟨hslot, hstep⟩ := makeWay_cases name names n σ
    · rw [hstep, hpath]
      refine ih h ?_
      rw [walk_append, hp, Option.bind_some, walk_cons_part, hm, Option.bind_some, walk_nil]
    · have hmade : (σ.make n name).walk (p ++ [name]) x = some (.part σ.length) := by
        rw [h.walk_make_through hp, walk_nil]
      rw [hstep, hpath]
      obtain ⟨hseparate, hway, hbeside⟩ := ih (h.make hp hslot) hmade
      refine ⟨hseparate, hway, fun q hq => ?_⟩
      rw [hbeside q hq, h.walk_make_of_ne hp hslot]
      rintro rfl
      exact hq (List.prefix_append _ _)

end Separate

end OptimalAssignment.Sections
