import Mathlib
import OptimalAssignment.Proofs.Settings.Entries
import OptimalAssignment.Proofs.Settings.Path

/-!
Entries laid over entries. A key leads to what the upper entries say of it, laid over what the lower
ones say; the keys of the lower entries come first. So a path finds what the upper entries say, and
where they say nothing it finds what the lower ones have, unless something else than a section
stands in its way.
-/
namespace OptimalAssignment

variable {kind : Atom → Bool} {key k : Atom} {v w : Value} {es fs : Entries}

namespace Value

theorem isSection_iff : v.isSection ↔ ∃ es, v = table es := by
  cases v <;> simp [isSection]

theorem table_or (v : Value) : (∃ es, v = table es) ∨ v.isSection = false := by
  rw [← isSection_iff, ← Bool.not_eq_true]
  exact em _

theorem isSection_eq_false (h : ∀ es, v = table es → False) : v.isSection = false := by
  rw [← Bool.not_eq_true, isSection_iff]
  exact fun ⟨es, he⟩ => h es he

@[simp] theorem isSection_table : (table es).isSection = true := rfl

@[simp] theorem overlay_table : (table es).overlay (table fs) = table (Entries.overlay es fs) := by
  rw [overlay, Entries.overlay]

/-- Only tables are merged. -/
theorem overlay_eq_self (h : v.isSection = false ∨ w.isSection = false) : v.overlay w = w := by
  cases w with
  | table fs => cases v <;> simp_all [overlay, isSection]
  | _ => rw [overlay]; simp

/-- An overlay merges two tables or is the upper value. -/
theorem tables_or_overlay_eq (v w : Value) :
    (∃ es fs, v = table es ∧ w = table fs) ∨ v.overlay w = w := by
  rcases v.table_or with ⟨es, rfl⟩ | hv
  · rcases w.table_or with ⟨fs, rfl⟩ | hw
    · exact .inl ⟨es, fs, rfl, rfl⟩
    · exact .inr (overlay_eq_self (.inr hw))
  · exact .inr (overlay_eq_self (.inl hv))

@[simp] theorem isSection_overlay : (v.overlay w).isSection = w.isSection := by
  rcases tables_or_overlay_eq v w with ⟨es, fs, rfl, rfl⟩ | h
  · rw [overlay_table, isSection_table, isSection_table]
  · rw [h]

/-- What stands where one thing was laid over another, if they were there. -/
def overlay? : Option Value → Option Value → Option Value
  | none, update => update
  | base, none => base
  | some v, some w => some (v.overlay w)

@[simp] theorem overlay?_none_left (update : Option Value) : overlay? none update = update := rfl

@[simp] theorem overlay?_none_right (base : Option Value) : overlay? base none = base := by
  cases base <;> rfl

@[simp] theorem overlay?_some (v w : Value) : overlay? (some v) (some w) = some (v.overlay w) := rfl

@[simp] theorem isNone_overlay? (base update : Option Value) :
    (overlay? base update).isNone = (base.isNone && update.isNone) := by
  cases base <;> cases update <;> rfl

end Value

namespace Entries

@[simp] theorem overlay_nil : overlay es [] = es := by
  rw [overlay, Value.overlayEntries]

theorem IsTree.overlay (hes : IsTree kind es) (hfs : IsTree kind fs) :
    IsTree kind (es.overlay fs) := by
  refine Value.overlayEntries.induct
    (fun v w => v.isTree kind → w.isTree kind → (v.overlay w).isTree kind)
    (fun es fs => IsTree kind es → IsTree kind fs → IsTree kind (es.overlay fs))
    ?tables ?onto ?replaced ?nil ?cons es fs hes hfs
  case tables =>
    intro fs es ih hes hfs
    rw [Value.overlay_table]
    exact ih hes hfs
  case onto =>
    intro v fs hv _ hfs
    rwa [Value.overlay_eq_self (.inl (Value.isSection_eq_false hv))]
  case replaced =>
    intro w v hw _ hw'
    rwa [Value.overlay_eq_self (.inr (Value.isSection_eq_false hw))]
  case nil =>
    intro es hes _
    rwa [overlay_nil]
  case cons =>
    intro es k v fs merged hold ih hes hfs
    obtain ⟨hk, -, hv, hfs⟩ := isTree_cons.mp hfs
    have hmerged : merged.isTree kind := by
      cases h : find? k es with
      | none => simpa [merged, h] using hv
      | some old => simpa [merged, h] using hold old (hes.of_find? h) hv
    have htail := ih (hes.put hk hmerged) hfs
    rwa [Entries.overlay, Value.overlayEntries]

end Entries

namespace Value

theorem isTree_overlay (hv : v.isTree kind) (hw : w.isTree kind) :
    (v.overlay w).isTree kind := by
  rcases tables_or_overlay_eq v w with ⟨es, fs, rfl, rfl⟩ | h
  · rw [overlay_table]
    exact Entries.IsTree.overlay hv hw
  · rwa [h]

end Value

namespace Entries

/-- One entry after the other is laid over what the others left. -/
theorem IsTree.overlay_cons (hes : IsTree kind es) (hfs : IsTree kind ((k, v) :: fs)) :
    ∃ merged, some merged = Value.overlay? (find? k es) (some v) ∧ IsTree kind (es.put k merged) ∧
      es.overlay ((k, v) :: fs) = (es.put k merged).overlay fs := by
  obtain ⟨hk, -, hv, -⟩ := isTree_cons.mp hfs
  rw [Entries.overlay, Value.overlayEntries]
  cases h : es.find? k with
  | none => exact ⟨v, rfl, hes.put hk hv, rfl⟩
  | some old =>
    have hmerged : (old.overlay v).isTree kind := Value.isTree_overlay (hes.of_find? h) hv
    exact ⟨old.overlay v, rfl, hes.put hk hmerged, rfl⟩

section Comparable

variable (hkind : Atom.Comparable kind)
include hkind

theorem find?_overlay (hes : IsTree kind es) (hfs : IsTree kind fs) (hkey : kind key) :
    find? key (overlay es fs) = Value.overlay? (find? key es) (find? key fs) := by
  induction fs generalizing es with
  | nil => simp
  | cons e fs ih =>
    obtain ⟨k, v⟩ := e
    obtain ⟨hk, -, -, hfs'⟩ := isTree_cons.mp hfs
    obtain ⟨merged, hmerged, hput, hcons⟩ := hes.overlay_cons hfs
    rw [hcons, ih hput hfs', find?_put hkind hes hk hkey, find?_cons]
    by_cases hsame : k.same key
    · rw [if_pos hsame, if_pos hsame, hfs.find?_tail hkind hkey hsame, Value.overlay?_none_right,
        hmerged, find?_congr hkind hes hk hkey hsame]
    · rw [if_neg hsame, if_neg hsame]

/-- New keys come after the old ones. -/
theorem map_fst_overlay (hes : IsTree kind es) (hfs : IsTree kind fs) :
    (overlay es fs).map Prod.fst =
      es.map Prod.fst ++ (fs.map Prod.fst).filter fun key => (find? key es).isNone := by
  induction fs generalizing es with
  | nil => simp
  | cons e fs ih =>
    obtain ⟨k, v⟩ := e
    obtain ⟨hk, hdistinct, -, hfs'⟩ := isTree_cons.mp hfs
    obtain ⟨merged, -, hput, hcons⟩ := hes.overlay_cons hfs
    have hrest : (fs.map Prod.fst).filter (fun key => (find? key (put k merged es)).isNone) =
        (fs.map Prod.fst).filter fun key => (find? key es).isNone := by
      refine List.filter_congr fun key hkey => ?_
      obtain ⟨e, he, rfl⟩ := List.mem_map.mp hkey
      have hne : ¬ k.same e.1 := by simpa using hdistinct e he
      rw [find?_put hkind hes hk (hfs'.of_mem he).1, if_neg hne]
    rw [hcons, ih hput hfs', hrest, map_fst_put, List.map_cons, List.filter_cons, List.append_assoc]
    split <;> simp

end Comparable

end Entries

namespace Value

/-! ### What paths find -/

variable {x : Value} {keys : List Atom}

section Comparable

variable (hkind : Atom.Comparable kind)
include hkind

theorem reach?_overlay_of_some (hv : v.isTree kind) (hw : w.isTree kind)
    (hkeys : ∀ k ∈ keys, kind k) (h : w.reach? keys = some x) :
    (v.overlay w).reach? keys = overlay? (v.reach? keys) (some x) := by
  induction keys generalizing v w with
  | nil =>
    obtain rfl : w = x := by simpa using h
    simp
  | cons k keys ih =>
    obtain ⟨hk, hkeys⟩ := List.forall_mem_cons.mp hkeys
    rcases w.table_or with ⟨fs, rfl⟩ | hw'
    · rcases v.table_or with ⟨es, rfl⟩ | hv'
      · rw [overlay_table, reach?_cons_table, reach?_cons_table,
          Entries.find?_overlay hkind hv hw hk]
        rw [reach?_cons_table] at h
        cases hf : Entries.find? k fs with
        | none => simp [hf] at h
        | some w' =>
          rw [hf, Option.bind_some] at h
          cases he : Entries.find? k es with
          | none => simpa using h
          | some v' =>
            simpa using ih (Entries.IsTree.of_find? hv he) (Entries.IsTree.of_find? hw hf) hkeys h
      · rw [overlay_eq_self (.inl hv'), reach?_cons hv', h, overlay?_none_left]
    · simp [reach?_cons hw'] at h

/-- Where the upper value says nothing and nothing stands in the way, the lower one shows. -/
theorem reach?_overlay_of_none (hv : v.isTree kind) (hw : w.isTree kind)
    (hkeys : ∀ k ∈ keys, kind k) (h : w.reach? keys = none)
    (hopen : ∀ init rest, keys = init ++ rest → ∀ x, w.reach? init = some x → x.isSection) :
    (v.overlay w).reach? keys = v.reach? keys := by
  induction keys generalizing v w with
  | nil => simp at h
  | cons k keys ih =>
    obtain ⟨hk, hkeys⟩ := List.forall_mem_cons.mp hkeys
    obtain ⟨fs, rfl⟩ := isSection_iff.mp (hopen [] (k :: keys) rfl w (by simp))
    rcases v.table_or with ⟨es, rfl⟩ | hv'
    · rw [overlay_table, reach?_cons_table, reach?_cons_table, Entries.find?_overlay hkind hv hw hk]
      rw [reach?_cons_table] at h
      cases hf : Entries.find? k fs with
      | none => simp
      | some w' =>
        rw [hf, Option.bind_some] at h
        have hopen' : ∀ init rest, keys = init ++ rest → ∀ x, w'.reach? init = some x →
            x.isSection := by
          intro init rest hkeys' x hx
          refine hopen (k :: init) rest (by rw [hkeys', List.cons_append]) x ?_
          rw [reach?_cons_table, hf, Option.bind_some, hx]
        cases he : Entries.find? k es with
        | none => simpa using h
        | some v' =>
          simpa using ih (Entries.IsTree.of_find? hv he) (Entries.IsTree.of_find? hw hf) hkeys h
            hopen'
    · rw [overlay_eq_self (.inl hv'), h, reach?_cons hv']

/-- Nothing is found behind something that is no section. -/
theorem reach?_overlay_of_blocked {init rest : List Atom} (hv : v.isTree kind) (hw : w.isTree kind)
    (hinit : ∀ k ∈ init, kind k) (hrest : rest ≠ []) (h : w.reach? init = some x)
    (hx : x.isSection = false) : (v.overlay w).reach? (init ++ rest) = none := by
  obtain ⟨k, rest, rfl⟩ := List.exists_cons_of_ne_nil hrest
  have hreach : (v.overlay w).reach? init = some x := by
    rw [reach?_overlay_of_some hkind hv hw hinit h]
    cases v.reach? init with
    | none => rfl
    | some old => rw [overlay?_some, overlay_eq_self (.inr hx)]
  rw [reach?_append, hreach, Option.bind_some, reach?_cons hx]

end Comparable

end Value

end OptimalAssignment
