import Mathlib
import OptimalAssignment.Proofs.Settings.Inheritance
import OptimalAssignment.Proofs.Settings.Overrides

/-!
Entries in another order. Entries are reordered by moving them about in their table, on any level.
Paths do not tell such entries apart; and trees that no path tells apart are reorderings of each
other.
-/
namespace OptimalAssignment

variable {key : Atom} {name other : String} {v w : Value}
  {es fs inner inner' : Entries}

namespace Entries

/-- Whether entries differ in nothing but their order, in this table and in those within it. -/
inductive Reordered : Entries → Entries → Prop
  | refl (es : Entries) : Reordered es es
  | swap (e f : Atom × Value) (es : Entries) : Reordered (e :: f :: es) (f :: e :: es)
  | cons (e : Atom × Value) {es fs : Entries} (h : Reordered es fs) : Reordered (e :: es) (e :: fs)
  | within (key : Atom) {inner inner' : Entries} (es : Entries) (h : Reordered inner inner') :
    Reordered ((key, .table inner) :: es) ((key, .table inner') :: es)
  | trans {es fs gs : Entries} (h : Reordered es fs) (h' : Reordered fs gs) : Reordered es gs

theorem Reordered.perm_keys (h : Reordered es fs) :
    (es.map Prod.fst).Perm (fs.map Prod.fst) := by
  induction h with
  | refl es => exact .refl _
  | swap e f es => exact .swap _ _ _
  | cons e _ ih => exact .cons _ ih
  | within key es _ _ => exact .refl _
  | trans _ _ ih ih' => exact ih.trans ih'

/-! ### Entries put one after the other -/

theorem put_put_text : put (.text name) v (put (.text name) w es) = put (.text name) v es := by
  induction es with
  | nil => simp
  | cons e es ih =>
    obtain ⟨k, u⟩ := e
    by_cases hk : k.same (.text name) <;> simp [hk, ih]

theorem reordered_put_put (h : name ≠ other) :
    Reordered (put (.text other) w (put (.text name) v es))
      (put (.text name) v (put (.text other) w es)) := by
  induction es with
  | nil =>
    have hne : other ≠ name := h.symm
    simpa [h, hne] using Reordered.swap (.text name, v) (.text other, w) []
  | cons e es ih =>
    obtain ⟨k, u⟩ := e
    by_cases hk : k.same (.text name)
    · obtain rfl := Atom.same_text_iff.mp hk
      simpa [h] using Reordered.refl _
    · by_cases hk' : k.same (.text other)
      · obtain rfl := Atom.same_text_iff.mp hk'
        simpa [hk] using Reordered.refl _
      · simpa [hk, hk'] using ih.cons (k, u)

theorem Reordered.put_table (h : Reordered inner inner') :
    Reordered (put (.text name) (.table inner) es) (put (.text name) (.table inner') es) := by
  induction es with
  | nil => exact h.within (.text name) []
  | cons e es ih =>
    obtain ⟨k, u⟩ := e
    by_cases hk : k.same (.text name)
    · simpa [hk] using h.within k es
    · simpa [hk] using ih.cons (k, u)

/-! ### What paths find in reordered entries -/

theorem Reordered.isTree (h : Reordered es fs) (hes : IsTree Atom.isText es) :
    IsTree Atom.isText fs := by
  induction h with
  | refl es => exact hes
  | swap e f es =>
    obtain ⟨k, v⟩ := e
    obtain ⟨l, w⟩ := f
    obtain ⟨hk, hdistinct, hv, hrest⟩ := isTree_cons.mp hes
    obtain ⟨hl, hdistinct', hw, hes⟩ := isTree_cons.mp hrest
    obtain ⟨hkl, hdistinct⟩ := List.forall_mem_cons.mp hdistinct
    rw [Atom.comparable_isText.comm hk hl] at hkl
    exact isTree_cons.mpr ⟨hl, List.forall_mem_cons.mpr ⟨hkl, hdistinct'⟩, hw,
      isTree_cons.mpr ⟨hk, hdistinct, hv, hes⟩⟩
  | @cons e es fs h ih =>
    obtain ⟨k, v⟩ := e
    obtain ⟨hk, hdistinct, hv, hes⟩ := isTree_cons.mp hes
    refine isTree_cons.mpr ⟨hk, fun f hf => ?_, hv, ih hes⟩
    have hmem : f.1 ∈ es.map Prod.fst := h.perm_keys.mem_iff.mpr (List.mem_map_of_mem hf)
    obtain ⟨e, he, heq⟩ := List.mem_map.mp hmem
    rw [← heq]
    exact hdistinct e he
  | within key es _ ih =>
    obtain ⟨hk, hdistinct, hinner, hes⟩ := isTree_cons.mp hes
    exact isTree_cons.mpr ⟨hk, hdistinct, ih hinner, hes⟩
  | trans _ _ ih ih' => exact ih' (ih hes)

open Value

theorem Reordered.alike (h : Reordered es fs) (hes : IsTree Atom.isText es) :
    Alike (table es) (table fs) := by
  induction h with
  | refl es => exact fun _ => rfl
  | swap e f es =>
    obtain ⟨k, v⟩ := e
    obtain ⟨l, w⟩ := f
    obtain ⟨hk, hdistinct, -, hrest⟩ := isTree_cons.mp hes
    obtain ⟨hl, -, -, -⟩ := isTree_cons.mp hrest
    have hkl : ¬ k.same l := by simpa using hdistinct _ List.mem_cons_self
    intro keys
    obtain _ | ⟨key, keys⟩ := keys
    · rfl
    have hboth : ¬ (k.same key ∧ l.same key) := by
      rintro ⟨hkey, hkey'⟩
      cases k <;> cases l <;> simp_all [Atom.isText, Atom.text_same_iff]
    rw [reach?_cons_table, reach?_cons_table, find?_cons, find?_cons, find?_cons, find?_cons]
    split
    next hkey => rw [if_neg fun hkey' => hboth ⟨hkey, hkey'⟩]
    · rfl
  | cons e _ ih =>
    obtain ⟨k, v⟩ := e
    obtain ⟨-, -, -, hes⟩ := isTree_cons.mp hes
    intro keys
    obtain _ | ⟨key, keys⟩ := keys
    · rfl
    have hrest := ih hes (key :: keys)
    rw [reach?_cons_table, reach?_cons_table] at hrest ⊢
    rw [find?_cons, find?_cons]
    split
    · rfl
    · exact hrest
  | within k es _ ih =>
    obtain ⟨-, -, hinner, -⟩ := isTree_cons.mp hes
    intro keys
    obtain _ | ⟨key, keys⟩ := keys
    · rfl
    rw [reach?_cons_table, reach?_cons_table, find?_cons, find?_cons]
    split
    · exact ih hinner keys
    · rfl
  | trans h _ ih ih' => exact fun keys => (ih hes keys).trans (ih' (h.isTree hes) keys)

/-! ### Entries that no path tells apart -/

theorem eq_of_face (h : face w = face v) :
    w = v ∨ ∃ inner inner', v = table inner ∧ w = table inner' := by
  cases v <;> cases w <;> simp_all [face]

theorem find?_drop_text (h : ¬ (Atom.text name).same key) :
    find? key (drop (.text name) es) = find? key es := by
  induction es with
  | nil => rfl
  | cons e es ih =>
    obtain ⟨k, v⟩ := e
    rw [drop, List.filter_cons]
    by_cases hk : k.same (.text name)
    · obtain rfl := Atom.same_text_iff.mp hk
      rw [find?_cons, if_neg h, ← ih]
      simp [drop]
    · rw [if_pos (by simpa using hk), find?_cons, find?_cons, ← ih, drop]

/-- An entry may be moved to the front. -/
theorem reordered_cons_drop (hes : IsTree Atom.isText es) (h : find? (.text name) es = some v) :
    Reordered ((.text name, v) :: drop (.text name) es) es := by
  induction es with
  | nil => simp at h
  | cons e es ih =>
    obtain ⟨k, w⟩ := e
    obtain ⟨-, hdistinct, -, hrest⟩ := isTree_cons.mp hes
    rw [find?_cons] at h
    rw [drop, List.filter_cons]
    by_cases hk : k.same (.text name)
    · obtain rfl := Atom.same_text_iff.mp hk
      rw [if_pos hk, Option.some.injEq] at h
      subst h
      have hdrop : List.filter (fun e => !e.1.same (.text name)) es = es := by
        refine List.filter_eq_self.mpr fun e he => ?_
        have hne := hdistinct e he
        rw [Atom.comparable_isText.comm rfl (hrest.of_mem he).1] at hne
        simpa using hne
      rw [if_neg (by simp), hdrop]
      exact .refl _
    · rw [if_neg hk] at h
      rw [if_pos (by simpa using hk)]
      exact (Reordered.swap _ _ _).trans ((ih hrest h).cons _)

/-- Trees that no path tells apart differ in the order of their entries only. -/
theorem reordered_of_alike {es fs : Entries} (hes : IsTree Atom.isText es)
    (hfs : IsTree Atom.isText fs) (h : Alike (table es) (table fs)) : Reordered es fs :=
  match es with
  | [] => by
    obtain _ | ⟨⟨k, w⟩, fs⟩ := fs
    · exact .refl _
    · have hk := h [k]
      obtain ⟨htext, -⟩ := isTree_cons.mp hfs
      simp [Atom.comparable_isText.refl htext] at hk
  | (k, v) :: es => by
    obtain ⟨htext, -, hv, hes'⟩ := isTree_cons.mp hes
    obtain ⟨name, rfl⟩ : ∃ name, k = .text name := by
      cases k <;> simp_all [Atom.isText]
    obtain ⟨w, hw, hface⟩ : ∃ w, find? (.text name) fs = some w ∧ face w = face v := by
      have hname := h [.text name]
      simpa using hname.symm
    have htail : Alike (table es) (table (drop (.text name) fs)) := by
      intro keys
      obtain _ | ⟨key, keys⟩ := keys
      · rfl
      rw [reach?_cons_table, reach?_cons_table]
      by_cases hkey : (Atom.text name).same key
      · obtain rfl := Atom.text_same_iff.mp hkey
        rw [hes.find?_tail Atom.comparable_isText rfl hkey, find?_drop]
      · have hrest := h (key :: keys)
        rw [find?_drop_text hkey]
        rwa [reach?_cons_table, reach?_cons_table, find?_cons, if_neg hkey] at hrest
    have hrest : Reordered es (drop (.text name) fs) := reordered_of_alike hes' hfs.drop htail
    have hfront : Reordered ((.text name, w) :: drop (.text name) fs) fs :=
      reordered_cons_drop hfs hw
    refine .trans ?_ hfront
    refine (hrest.cons _).trans ?_
    rcases eq_of_face hface with rfl | ⟨inner, inner', rfl, rfl⟩
    · exact .refl _
    · refine .within _ _ (reordered_of_alike hv (hfs.of_find? hw) fun keys => ?_)
      have hkeys := h (.text name :: keys)
      rwa [reach?_cons_table, reach?_cons_table, hw, find?_cons, if_pos (by simp)] at hkeys

theorem alike_iff_reordered (hes : IsTree Atom.isText es) (hfs : IsTree Atom.isText fs) :
    Alike (table es) (table fs) ↔ Reordered es fs :=
  ⟨reordered_of_alike hes hfs, fun h => h.alike hes⟩

end Entries

end OptimalAssignment
