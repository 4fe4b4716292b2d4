import Mathlib
import OptimalAssignment.Proofs.Settings.Reordering

/-!
Entries that are not changed by laying them over others. They lose nothing by it, and they gain
nothing just if, in every section that both have, they have all keys of the lower ones.
-/
namespace OptimalAssignment

variable {key : Atom} {keys more : List Atom} {v w x y : Value} {es fs : Entries}

namespace Value

/-- Whether, in every section that both values have, the second one has all keys of the first. -/
def Covers (v w : Value) : Prop :=
  ∀ keys es fs, v.reach? keys = some (table es) → w.reach? keys = some (table fs) →
    es.map Prod.fst ⊆ fs.map Prod.fst

theorem isSection_of_reach?_append (hx : v.reach? keys = some x)
    (hy : v.reach? (keys ++ key :: more) = some y) : x.isSection := by
  rw [reach?_append, hx, Option.bind_some] at hy
  by_contra hsection
  rw [reach?_cons (by simpa using hsection)] at hy
  contradiction

theorem isText_of_reach? (hv : v.isTree Atom.isText) (h : v.reach? keys = some x) :
    ∀ k ∈ keys, k.isText := by
  induction keys generalizing v with
  | nil => simp
  | cons key keys ih =>
    rcases v.table_or with ⟨es, rfl⟩ | hsection
    · rw [reach?_cons_table, Option.bind_eq_some_iff] at h
      obtain ⟨w, hw, hx⟩ := h
      obtain ⟨k, hsame, hmem⟩ := Entries.exists_mem_of_find? hw
      obtain ⟨hk, -⟩ := Entries.IsTree.of_mem hv hmem
      have htext : key.isText := by
        cases k <;> simp_all [Atom.isText, Atom.text_same_iff]
      exact List.forall_mem_cons.mpr ⟨htext, ih (Entries.IsTree.of_find? hv hw) hx⟩
    · simp [reach?_cons hsection] at h

theorem isTree_of_reach? {kind : Atom → Bool} (hv : v.isTree kind) (h : v.reach? keys = some x) :
    x.isTree kind := by
  induction keys generalizing v with
  | nil =>
    obtain rfl : v = x := by simpa using h
    exact hv
  | cons key keys ih =>
    rcases v.table_or with ⟨es, rfl⟩ | hsection
    · rw [reach?_cons_table, Option.bind_eq_some_iff] at h
      obtain ⟨w, hw, hx⟩ := h
      exact ih (Entries.IsTree.of_find? hv hw) hx
    · simp [reach?_cons hsection] at h

/-- A path that finds nothing has a last place that is found. -/
theorem exists_last_found (h : v.reach? keys = none) :
    ∃ init key rest x, keys = init ++ key :: rest ∧ v.reach? init = some x ∧
      x.reach? [key] = none := by
  induction keys generalizing v with
  | nil => simp at h
  | cons key keys ih =>
    cases hfirst : v.reach? [key] with
    | none => exact ⟨[], key, keys, v, rfl, by simp, hfirst⟩
    | some w =>
      have hrest : w.reach? keys = none := by
        rwa [← List.singleton_append, reach?_append, hfirst, Option.bind_some] at h
      obtain ⟨init, k, rest, x, rfl, hx, hnone⟩ := ih hrest
      refine ⟨key :: init, k, rest, x, rfl, ?_, hnone⟩
      rw [← List.singleton_append, reach?_append, hfirst, Option.bind_some, hx]

theorem face_overlay : face (v.overlay w) = face w := by
  rcases tables_or_overlay_eq v w with ⟨es, fs, rfl, rfl⟩ | h
  · rw [overlay_table, face, face]
  · rw [h]

theorem reach?_of_missing (hx : v.reach? keys = some (table fs))
    (hnone : Entries.find? key fs = none) : v.reach? (keys ++ key :: more) = none := by
  rw [reach?_append, hx, Option.bind_some, reach?_cons_table, hnone, Option.bind_none]

/-- On the way to a key that a section does not have there are only sections. -/
theorem isSection_of_missing {init rest : List Atom} (hx : v.reach? keys = some (table fs))
    (hnone : Entries.find? key fs = none) (hsplit : keys ++ key :: more = init ++ rest)
    (hy : v.reach? init = some y) : y.isSection := by
  rcases List.append_eq_append_iff.mp hsplit with ⟨between, rfl, hlong⟩ | ⟨between, rfl, -⟩
  · obtain _ | ⟨k, between⟩ := between
    · rw [List.append_nil, hx, Option.some.injEq] at hy
      rw [← hy, isSection_table]
    · obtain ⟨rfl, -⟩ := List.cons.inj hlong
      rw [reach?_of_missing hx hnone] at hy
      contradiction
  · obtain _ | ⟨k, between⟩ := between
    · rw [List.append_nil, hy, Option.some.injEq] at hx
      rw [hx, isSection_table]
    · exact isSection_of_reach?_append hy hx

/-- The lower value is seen through a section of the upper one that does not have a key. -/
theorem reach?_overlay_of_missing (hv : v.isTree Atom.isText) (hw : w.isTree Atom.isText)
    (htext : ∀ k ∈ keys ++ key :: more, k.isText) (hx : w.reach? keys = some (table fs))
    (hnone : Entries.find? key fs = none) :
    (v.overlay w).reach? (keys ++ key :: more) = v.reach? (keys ++ key :: more) :=
  reach?_overlay_of_none Atom.comparable_isText hv hw htext (reach?_of_missing hx hnone)
    fun _ _ hsplit _ => isSection_of_missing hx hnone hsplit

end Value

namespace Entries

open Value

theorem mem_keys_iff (hes : IsTree Atom.isText es) :
    key ∈ es.map Prod.fst ↔ ∃ v, find? key es = some v := by
  rw [← Option.ne_none_iff_exists', ne_eq, ← Option.isNone_iff_eq_none]
  constructor
  · intro hmem
    simp [isNone_find?_of_mem Atom.comparable_isText hes hmem]
  · intro h
    obtain ⟨v, hv⟩ := Option.ne_none_iff_exists'.mp (mt Option.isNone_iff_eq_none.mpr h)
    obtain ⟨k, hsame, hmem⟩ := exists_mem_of_find? hv
    obtain ⟨hk, -⟩ := hes.of_mem hmem
    obtain rfl : key = k := by
      cases k <;> simp_all [Atom.isText, Atom.text_same_iff]
    exact List.mem_map_of_mem hmem

section Trees

variable (hes : IsTree Atom.isText es) (hfs : IsTree Atom.isText fs)
include hes hfs

theorem covers_of_alike (h : Alike (table (overlay es fs)) (table fs)) :
    Covers (table es) (table fs) := by
  intro keys lower upper hlower hupper key hkey
  have hlower' : IsTree Atom.isText lower := isTree_of_reach? hes hlower
  have hupper' : IsTree Atom.isText upper := isTree_of_reach? hfs hupper
  rw [mem_keys_iff hupper', ← Option.ne_none_iff_exists']
  intro hnone
  obtain ⟨x, hx⟩ := (mem_keys_iff hlower').mp hkey
  have hfound : (table es).reach? (keys ++ [key]) = some x := by
    rw [reach?_append, hlower]
    simp [hx]
  have hthrough := reach?_overlay_of_missing (v := table es) hes hfs
    (isText_of_reach? hes hfound) hupper hnone
  have hface := h (keys ++ [key])
  rw [← overlay_table, hthrough, hfound, reach?_of_missing hupper hnone] at hface
  contradiction

theorem alike_of_covers (h : Covers (table es) (table fs)) :
    Alike (table (overlay es fs)) (table fs) := by
  intro keys
  rw [← overlay_table]
  cases hupper : (table fs).reach? keys with
  | some x =>
    rw [reach?_overlay_of_some Atom.comparable_isText hes hfs (isText_of_reach? hfs hupper) hupper]
    cases (table es).reach? keys with
    | none => rfl
    | some v => simp [face_overlay]
  | none =>
    rw [Option.map_none, Option.map_eq_none_iff, Option.eq_none_iff_forall_ne_some]
    intro y hy
    have htext : ∀ k ∈ keys, k.isText := isText_of_reach? (isTree_overlay hes hfs) hy
    obtain ⟨init, key, rest, x, rfl, hx, hnone⟩ := exists_last_found hupper
    rcases x.table_or with ⟨upper, rfl⟩ | hsection
    · -- the lower entries have a section there too, with a key that the upper one lacks
      have hmissing : find? key upper = none := by simpa using hnone
      rw [reach?_overlay_of_missing hes hfs htext hx hmissing] at hy
      obtain ⟨z, hz, hrest⟩ := Option.bind_eq_some_iff.mp (reach?_append.symm.trans hy)
      obtain ⟨lower, rfl⟩ := isSection_iff.mp (isSection_of_reach?_append hz hy)
      obtain ⟨u, hu, -⟩ := Option.bind_eq_some_iff.mp (reach?_cons_table.symm.trans hrest)
      have hkey : key ∈ lower.map Prod.fst :=
        (mem_keys_iff (isTree_of_reach? hes hz)).mpr ⟨u, hu⟩
      obtain ⟨u', hu'⟩ :=
        (mem_keys_iff (isTree_of_reach? hfs hx)).mp (h init lower upper hz hx hkey)
      rw [hmissing] at hu'
      contradiction
    · rw [reach?_overlay_of_blocked Atom.comparable_isText hes hfs
        (fun k hk => htext k (List.mem_append_left _ hk)) (by simp) hx hsection] at hy
      contradiction

/-- Entries come out of an overlay as they were, up to their order, just if they cover the lower
ones. -/
theorem reordered_overlay_iff :
    Reordered (overlay es fs) fs ↔ Covers (table es) (table fs) := by
  rw [← alike_iff_reordered (hes.overlay hfs) hfs]
  exact ⟨covers_of_alike hes hfs, alike_of_covers hes hfs⟩

end Trees

end Entries

end OptimalAssignment
