import Mathlib
import OptimalAssignment.Proofs.Settings.Overlay

/-!
Agreement in kind, and the algebra of overlays. Nothing is neutral, laying the same entries over
once more changes nothing, and three layers can be put together in either order if no path is a
section in one of them and something else in another. The order of the keys is the same in all of
this.
-/
namespace OptimalAssignment

variable {kind : Atom → Bool} {key : Atom} {u v w x y : Value} {es fs gs : Entries}

namespace Value

/-! ### Agreement in kind -/

/-- Whether no path is a section in one value and something else in the other. -/
def Agrees (kind : Atom → Bool) (v w : Value) : Prop :=
  ∀ keys, (∀ k ∈ keys, kind k) → ∀ x y, v.reach? keys = some x → w.reach? keys = some y →
    x.isSection = y.isSection

theorem Agrees.refl : Agrees kind v v := by
  intro keys _ x y hx hy
  rw [Option.some.inj (hx.symm.trans hy)]

theorem Agrees.symm (h : Agrees kind v w) : Agrees kind w v :=
  fun keys hkeys x y hx hy => (h keys hkeys y x hy hx).symm

theorem Agrees.isSection_eq (h : Agrees kind v w) : v.isSection = w.isSection :=
  h [] (by simp) v w (by simp) (by simp)

theorem Agrees.find? (h : Agrees kind (table es) (table fs)) (hkey : kind key)
    (hx : Entries.find? key es = some x) (hy : Entries.find? key fs = some y) :
    Agrees kind x y := by
  intro keys hkeys x' y' hx' hy'
  refine h (key :: keys) (List.forall_mem_cons.mpr ⟨hkey, hkeys⟩) x' y' ?_ ?_
  · rw [reach?_cons_table, hx, Option.bind_some, hx']
  · rw [reach?_cons_table, hy, Option.bind_some, hy']

theorem Agrees.of_isSection_eq_false (hv : v.isSection = false) (hw : w.isSection = false) :
    Agrees kind v w := by
  intro keys _ x y hx hy
  cases keys with
  | nil => simp_all
  | cons key keys => simp [reach?_cons hv] at hx

section Comparable

variable (hkind : Atom.Comparable kind)
include hkind

/-- Tables agree if what they have under the same keys does. -/
theorem Agrees.of_forall (hes : Entries.IsTree kind es) (hfs : Entries.IsTree kind fs)
    (h : ∀ e ∈ es, ∀ f ∈ fs, e.1.same f.1 → Agrees kind e.2 f.2) :
    Agrees kind (table es) (table fs) := by
  intro keys hkeys x y hx hy
  cases keys with
  | nil =>
    rw [reach?_nil, Option.some.injEq] at hx hy
    rw [← hx, ← hy, isSection_table, isSection_table]
  | cons key keys =>
    obtain ⟨hkey, hkeys⟩ := List.forall_mem_cons.mp hkeys
    obtain ⟨v, hv, hx⟩ := Option.bind_eq_some_iff.mp hx
    obtain ⟨w, hw, hy⟩ := Option.bind_eq_some_iff.mp hy
    obtain ⟨k, hk, hmem⟩ := Entries.exists_mem_of_find? hv
    obtain ⟨l, hl, hmem'⟩ := Entries.exists_mem_of_find? hw
    have hsame : k.same l :=
      hkind.trans (hes.of_mem hmem).1 hkey (hfs.of_mem hmem').1 hk
        (hkind.symm (hfs.of_mem hmem').1 hkey hl)
    exact h _ hmem _ hmem' hsame keys hkeys x y hx hy

theorem Agrees.of_leaves (hes : Entries.IsTree kind es) (hfs : Entries.IsTree kind fs)
    (hleft : ∀ e ∈ es, e.2.isSection = false) (hright : ∀ f ∈ fs, f.2.isSection = false) :
    Agrees kind (table es) (table fs) :=
  .of_forall hkind hes hfs fun e he f hf _ => .of_isSection_eq_false (hleft e he) (hright f hf)

theorem Agrees.overlay (hu : u.isTree kind) (hv : v.isTree kind) (huw : Agrees kind u w)
    (hvw : Agrees kind v w) : Agrees kind (u.overlay v) w := by
  intro keys hkeys x y hx hy
  cases hz : v.reach? keys with
  | some z =>
    have hzy := hvw keys hkeys z y hz hy
    rw [reach?_overlay_of_some hkind hu hv hkeys hz] at hx
    cases hu' : u.reach? keys with
    | none => simp_all
    | some old =>
      rw [hu', overlay?_some, Option.some.injEq] at hx
      rw [← hx, isSection_overlay, hzy]
  | none =>
    by_cases hopen : ∀ init rest, keys = init ++ rest → ∀ x, v.reach? init = some x → x.isSection
    · rw [reach?_overlay_of_none hkind hu hv hkeys hz hopen] at hx
      exact huw keys hkeys x y hx hy
    · push Not at hopen
      obtain ⟨init, rest, rfl, z, hz', hsection⟩ := hopen
      have hrest : rest ≠ [] := by
        rintro rfl
        simp [hz'] at hz
      rw [reach?_overlay_of_blocked hkind hu hv (fun k hk => hkeys k (List.mem_append_left _ hk))
        hrest hz' (by simpa using hsection)] at hx
      contradiction

end Comparable

end Value

/-! ### The algebra of overlays -/

namespace Entries

open Value

variable (hkind : Atom.Comparable kind)
include hkind

theorem nil_overlay (hes : IsTree kind es) : overlay [] es = es := by
  have hnil : IsTree kind [] := rfl
  refine (hnil.overlay hes).ext hkind hes ?_ fun key hkey => ?_
  · rw [map_fst_overlay hkind hnil hes]
    simp
  · rw [find?_overlay hkind hnil hes hkey]
    simp

/-- Laying the same entries over the result once more changes nothing. -/
theorem overlay_overlay_self (hes : IsTree kind es) (hfs : IsTree kind fs) :
    overlay (overlay es fs) fs = overlay es fs := by
  induction fs using Entries.induction generalizing es with
  | h fs ih =>
    have hmerged := hes.overlay hfs
    refine (hmerged.overlay hfs).ext hkind hmerged ?_ fun key hkey => ?_
    · have hnew :
          (fs.map Prod.fst).filter (fun key => (find? key (overlay es fs)).isNone) = [] := by
        rw [List.filter_eq_nil_iff]
        intro key hmem
        obtain ⟨e, he, rfl⟩ := List.mem_map.mp hmem
        rw [find?_overlay hkind hes hfs (hfs.of_mem he).1, isNone_overlay?,
          isNone_find?_of_mem hkind hfs hmem]
        simp
      rw [map_fst_overlay hkind hmerged hfs, hnew, List.append_nil]
    · rw [find?_overlay hkind hmerged hfs hkey, find?_overlay hkind hes hfs hkey]
      cases hz : find? key fs with
      | none => simp
      | some z =>
        have hself : z.overlay z = z := by
          rcases z.table_or with ⟨inner, rfl⟩ | hsection
          · have hnil : IsTree kind [] := rfl
            have hidem := ih key inner hz hnil (hfs.of_find? hz)
            rw [nil_overlay hkind (hfs.of_find? hz)] at hidem
            rw [overlay_table, hidem]
          · exact overlay_eq_self (.inl hsection)
        cases hx : find? key es with
        | none => rw [overlay?_none_left, overlay?_some, hself]
        | some x =>
          rw [overlay?_some, overlay?_some]
          rcases tables_or_overlay_eq x z with ⟨old, inner, rfl, rfl⟩ | hupper
          · rw [overlay_table, overlay_table,
              ih key inner hz (hes.of_find? hx) (hfs.of_find? hz)]
          · rw [hupper, hself]

theorem overlay_assoc (hes : IsTree kind es) (hfs : IsTree kind fs) (hgs : IsTree kind gs)
    (hef : Agrees kind (.table es) (.table fs)) (heg : Agrees kind (.table es) (.table gs))
    (hfg : Agrees kind (.table fs) (.table gs)) :
    overlay (overlay es fs) gs = overlay es (overlay fs gs) := by
  induction gs using Entries.induction generalizing es fs with
  | h gs ih =>
    have hlower := hes.overlay hfs
    have hupper := hfs.overlay hgs
    refine (hlower.overlay hgs).ext hkind (hes.overlay hupper) ?_ fun key hkey => ?_
    · have hnew : (gs.map Prod.fst).filter (fun key => (find? key (overlay es fs)).isNone) =
          (gs.map Prod.fst).filter fun key => (find? key es).isNone && (find? key fs).isNone := by
        refine List.filter_congr fun key hmem => ?_
        obtain ⟨e, he, rfl⟩ := List.mem_map.mp hmem
        rw [find?_overlay hkind hes hfs (hgs.of_mem he).1, isNone_overlay?]
      rw [map_fst_overlay hkind hlower hgs, map_fst_overlay hkind hes hfs,
        map_fst_overlay hkind hes hupper, map_fst_overlay hkind hfs hgs, hnew, List.filter_append,
        List.filter_filter, List.append_assoc]
    · rw [find?_overlay hkind hlower hgs hkey, find?_overlay hkind hes hfs hkey,
        find?_overlay hkind hes hupper hkey, find?_overlay hkind hfs hgs hkey]
      cases hx : find? key es with
      | none => simp
      | some x =>
        cases hy : find? key fs with
        | none => simp
        | some y =>
          cases hz : find? key gs with
          | none => simp
          | some z =>
            have hxy := hef.find? hkey hx hy
            have hxz := heg.find? hkey hx hz
            have hyz := hfg.find? hkey hy hz
            simp only [overlay?_some, Option.some.injEq]
            rcases z.table_or with ⟨inner, rfl⟩ | hsection
            · obtain ⟨first, rfl⟩ := isSection_iff.mp hxz.isSection_eq
              obtain ⟨second, rfl⟩ := isSection_iff.mp hyz.isSection_eq
              simp only [overlay_table]
              rw [ih key inner hz (hes.of_find? hx) (hfs.of_find? hy) (hgs.of_find? hz) hxy hxz hyz]
            · rw [overlay_eq_self (.inr hsection), overlay_eq_self (.inr hsection),
                overlay_eq_self (.inr hsection)]

end Entries

end OptimalAssignment
