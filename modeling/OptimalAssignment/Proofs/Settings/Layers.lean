import Mathlib
import OptimalAssignment.Proofs.Settings.Agreement

/-!
Layers of entries, each laid over the ones before it. Layers that agree in kind may be put together
in any grouping, and what stands at a path in the end is what the last layer that has the path says.
-/
namespace OptimalAssignment

variable {kind : Atom → Bool} {keys : List Atom} {v w x : Value} {es : Entries}
  {lower upper : List Entries}

/-- A path ends where the upper value says; where it does not say anything, the lower one does. -/
theorem Value.Agrees.reach?_overlay_iff (hkind : Atom.Comparable kind) (hv : v.isTree kind)
    (hw : w.isTree kind) (h : Agrees kind v w) (hkeys : ∀ k ∈ keys, kind k)
    (hx : x.isSection = false) :
    (v.overlay w).reach? keys = some x ↔
      w.reach? keys = some x ∨ w.reach? keys = none ∧ v.reach? keys = some x := by
  cases hupper : w.reach? keys with
  | some y =>
    rw [reach?_overlay_of_some hkind hv hw hkeys hupper]
    cases hlower : v.reach? keys with
    | none => simp
    | some old =>
      cases hy : y.isSection with
      | false => simp [overlay_eq_self (v := old) (.inr hy)]
      | true =>
        have hleft : old.overlay y ≠ x := by
          rintro rfl
          simp [hy] at hx
        have hright : y ≠ x := by
          rintro rfl
          simp [hy] at hx
        simp [hleft, hright]
  | none =>
    by_cases hopen : ∀ init rest, keys = init ++ rest → ∀ z, w.reach? init = some z → z.isSection
    · simp [reach?_overlay_of_none hkind hv hw hkeys hupper hopen]
    · -- what stands in the way is no section in the lower value either
      push Not at hopen
      obtain ⟨init, rest, rfl, z, hz, hnot⟩ := hopen
      have hsection : z.isSection = false := by simpa using hnot
      have hrest : rest ≠ [] := by
        rintro rfl
        simp [hz] at hupper
      have hinit : ∀ k ∈ init, kind k := fun k hk => hkeys k (List.mem_append_left _ hk)
      have hnone : v.reach? (init ++ rest) = none := by
        rw [reach?_append, Option.bind_eq_none_iff]
        intro y hy
        obtain ⟨k, more, rfl⟩ := List.exists_cons_of_ne_nil hrest
        exact reach?_cons ((h init hinit y z hy hz).trans hsection)
      simp [reach?_overlay_of_blocked hkind hv hw hinit hrest hz hsection, hnone]

namespace Entries

open Value

/-- Layers laid one over the other, from nothing. -/
def stack (layers : List Entries) : Entries :=
  layers.foldl overlay []

@[simp] theorem stack_nil : stack [] = [] := rfl

@[simp] theorem stack_concat : stack (lower ++ [es]) = (stack lower).overlay es := by
  rw [stack, List.foldl_concat, stack]

/-- Trees of which no path is a section in one and something else in another. -/
structure Compatible (kind : Atom → Bool) (layers : List Entries) : Prop where
  tree {es : Entries} (hes : es ∈ layers) : IsTree kind es
  agrees {es fs : Entries} (hes : es ∈ layers) (hfs : fs ∈ layers) :
    Agrees kind (.table es) (.table fs)

theorem Compatible.mono (h : Compatible kind upper) (hsub : lower ⊆ upper) :
    Compatible kind lower where
  tree hes := h.tree (hsub hes)
  agrees hes hfs := h.agrees (hsub hes) (hsub hfs)

theorem Compatible.left (h : Compatible kind (lower ++ upper)) : Compatible kind lower :=
  h.mono (List.subset_append_left lower upper)

theorem Compatible.right (h : Compatible kind (lower ++ upper)) : Compatible kind upper :=
  h.mono (List.subset_append_right lower upper)

theorem isTree_stack (h : ∀ es ∈ lower, IsTree kind es) : IsTree kind (stack lower) := by
  induction lower using List.reverseRecOn with
  | nil => rfl
  | append_singleton lower es ih =>
    obtain ⟨hlower, hes⟩ := List.forall_mem_append.mp h
    rw [stack_concat]
    exact (ih hlower).overlay (hes es List.mem_cons_self)

/-- Whether the last layer that has a path has a given value there. -/
def LastSays (keys : List Atom) (x : Value) (layers : List Entries) : Prop :=
  ∃ before es after, layers = before ++ es :: after ∧ (Value.table es).reach? keys = some x ∧
    ∀ fs ∈ after, (Value.table fs).reach? keys = none

theorem lastSays_concat : LastSays keys x (lower ++ [es]) ↔
    (Value.table es).reach? keys = some x ∨
      (Value.table es).reach? keys = none ∧ LastSays keys x lower := by
  constructor
  · rintro ⟨before, fs, after, hsplit, hfs, hafter⟩
    obtain rfl | ⟨after, last, rfl⟩ := after.eq_nil_or_concat'
    · obtain ⟨rfl, hlast⟩ := List.append_inj' hsplit rfl
      obtain rfl : es = fs := List.singleton_inj.mp hlast
      exact .inl hfs
    · rw [← List.cons_append, ← List.append_assoc] at hsplit
      obtain ⟨rfl, hlast⟩ := List.append_inj' hsplit rfl
      obtain rfl : es = last := List.singleton_inj.mp hlast
      refine .inr ⟨hafter es (by simp), before, fs, after, rfl, hfs, fun gs hgs => ?_⟩
      exact hafter gs (List.mem_append_left _ hgs)
  · rintro (hes | ⟨hes, before, fs, after, rfl, hfs, hafter⟩)
    · exact ⟨lower, es, [], rfl, hes, by simp⟩
    · refine ⟨before, fs, after ++ [es], by simp, hfs, fun gs hgs => ?_⟩
      rcases List.mem_append.mp hgs with hgs | hgs
      · exact hafter gs hgs
      · rwa [List.mem_singleton.mp hgs]

section Comparable

variable (hkind : Atom.Comparable kind)
include hkind

/-- What agrees with every layer agrees with all of them together. -/
theorem agrees_stack (htree : ∀ fs ∈ lower, IsTree kind fs)
    (h : ∀ fs ∈ lower, Agrees kind (.table fs) (.table es)) :
    Agrees kind (.table (stack lower)) (.table es) := by
  induction lower using List.reverseRecOn with
  | nil =>
    intro keys _ x y hx hy
    cases keys with
    | nil =>
      rw [reach?_nil, Option.some.injEq] at hx hy
      rw [← hx, ← hy, isSection_table, isSection_table]
    | cons key keys => simp at hx
  | append_singleton lower fs ih =>
    obtain ⟨hlower, hfs⟩ := List.forall_mem_append.mp h
    obtain ⟨htrees, htree⟩ := List.forall_mem_append.mp htree
    rw [stack_concat, ← overlay_table]
    exact (ih htrees hlower).overlay hkind (isTree_stack htrees) (htree fs List.mem_cons_self)
      (hfs fs List.mem_cons_self)

/-- Layers that are put together first may be laid over the others as one. -/
theorem stack_append (h : Compatible kind (lower ++ upper)) :
    stack (lower ++ upper) = (stack lower).overlay (stack upper) := by
  induction upper using List.reverseRecOn with
  | nil => simp
  | append_singleton upper es ih =>
    rw [← List.append_assoc] at h
    have hes : es ∈ lower ++ upper ++ [es] := by simp
    have hagrees {layers : List Entries} (hsub : layers ⊆ lower ++ upper ++ [es]) :
        Agrees kind (.table (stack layers)) (.table es) :=
      agrees_stack hkind (fun _ hfs => h.tree (hsub hfs)) fun _ hfs => h.agrees (hsub hfs) hes
    have hlower : lower ⊆ lower ++ upper ++ [es] := by simp
    have hupper : upper ⊆ lower ++ upper ++ [es] := by simp
    have hboth : Agrees kind (.table (stack lower)) (.table (stack upper)) := by
      refine agrees_stack hkind (fun _ hfs => h.tree (hlower hfs)) fun fs hfs => ?_
      refine (agrees_stack hkind (fun _ hgs => h.tree (hupper hgs)) fun gs hgs => ?_).symm
      exact h.agrees (hupper hgs) (hlower hfs)
    rw [← List.append_assoc, stack_concat, ih h.left, stack_concat,
      overlay_assoc hkind (isTree_stack fun _ hfs => h.tree (hlower hfs))
        (isTree_stack fun _ hfs => h.tree (hupper hfs)) (h.tree hes) hboth (hagrees hlower)
        (hagrees hupper)]

/-- A path ends at what the last layer that has it says. -/
theorem reach?_stack_iff (h : Compatible kind lower) (hkeys : ∀ k ∈ keys, kind k)
    (hx : x.isSection = false) :
    (Value.table (stack lower)).reach? keys = some x ↔ LastSays keys x lower := by
  induction lower using List.reverseRecOn with
  | nil =>
    have hnot : ¬ LastSays keys x [] := by
      rintro ⟨before, es, after, hsplit, -⟩
      simp at hsplit
    cases keys with
    | nil =>
      simp only [hnot, iff_false, reach?_nil, Option.some.injEq]
      rintro rfl
      simp at hx
    | cons key keys => simp [hnot]
  | append_singleton lower es ih =>
    have hmem : es ∈ lower ++ [es] := by simp
    have htree : IsTree kind (stack lower) := isTree_stack fun _ hfs => h.left.tree hfs
    have hagrees : Agrees kind (.table (stack lower)) (.table es) :=
      agrees_stack hkind (fun _ hfs => h.left.tree hfs) fun _ hfs =>
        h.agrees (List.mem_append_left _ hfs) hmem
    rw [stack_concat, ← overlay_table,
      hagrees.reach?_overlay_iff hkind htree (h.tree hmem) hkeys hx, ih h.left, lastSays_concat]

end Comparable

end Entries

end OptimalAssignment
