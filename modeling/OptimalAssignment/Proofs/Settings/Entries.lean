import Mathlib
import OptimalAssignment.Settings.Tree

/-!
Entries as trees of finite maps. Keys of a kind are compared by an equivalence, no key stands twice
in a table, and tables end. Such entries are told by the order of their keys and by what each key
leads to.
-/
namespace OptimalAssignment

/-! ### Kinds of keys -/

namespace Atom

/-- Whether `same` is an equivalence among the keys of a kind. -/
structure Comparable (kind : Atom → Bool) : Prop where
  refl {k : Atom} (hk : kind k) : k.same k
  symm {k l : Atom} (hk : kind k) (hl : kind l) (h : k.same l) : l.same k
  trans {k l m : Atom} (hk : kind k) (hl : kind l) (hm : kind m) (h : k.same l)
    (h' : l.same m) : k.same m

variable {kind : Atom → Bool} {k l m : Atom}

theorem Comparable.comm (hkind : Comparable kind) (hk : kind k) (hl : kind l) :
    k.same l = l.same k :=
  Bool.eq_iff_iff.mpr ⟨hkind.symm hk hl, hkind.symm hl hk⟩

theorem Comparable.congr_left (hkind : Comparable kind) (hk : kind k) (hl : kind l) (hm : kind m)
    (h : k.same l) : k.same m = l.same m :=
  Bool.eq_iff_iff.mpr
    ⟨hkind.trans hl hk hm (hkind.symm hk hl h), hkind.trans hk hl hm h⟩

/-- Keys that stand for some data are compared as the data are. -/
theorem Comparable.of_eq {β : Type} (f : Atom → β)
    (h : ∀ k l, kind k → kind l → (k.same l ↔ f k = f l)) : Comparable kind where
  refl hk := (h _ _ hk hk).mpr rfl
  symm hk hl hkl := (h _ _ hl hk).mpr ((h _ _ hk hl).mp hkl).symm
  trans hk hl hm hkl hlm :=
    (h _ _ hk hm).mpr (((h _ _ hk hl).mp hkl).trans ((h _ _ hl hm).mp hlm))

def isText : Atom → Bool
  | text _ => true
  | _ => false

/-- All keys but floats. -/
def isExact : Atom → Bool
  | real _ => false
  | _ => true

/-- What a key stands for: an instant, or an atom in which truth values are numbers. -/
def sense : Atom → ℤ ⊕ Atom
  | truth b => .inr (integer (if b then 1 else 0))
  | moment m =>
    match m.instant? with
    | some t => .inl t
    | none => .inr (moment m)
  | k => .inr k

theorem text_same_iff {s : String} : (text s).same k ↔ k = text s := by
  cases k with
  | text t =>
    rw [same_text, beq_iff_eq, Atom.text.injEq]
    exact eq_comm
  | _ => simp [same, whole?]

theorem same_text_iff {s : String} : k.same (text s) ↔ k = text s := by
  cases k with
  | text t => simp
  | _ => simp [same, whole?]

theorem comparable_isText : Comparable isText := by
  refine .of_eq id fun k l hk hl => ?_
  cases k <;> cases l <;> simp_all [isText]

theorem moment_same_iff {m n : Moment} :
    (moment m).same (moment n) ↔ (moment m).sense = (moment n).sense := by
  cases hm : m.instant? <;> cases hn : n.instant? <;> simp [same, Moment.same, sense, hm, hn]
  all_goals
    rintro rfl
    simp_all

theorem comparable_isExact : Comparable isExact := by
  refine .of_eq sense fun k l hk hl => ?_
  cases k with
  | moment m =>
    cases l with
    | moment n => exact moment_same_iff
    | _ => cases hm : m.instant? <;> simp_all [isExact, same, whole?, sense]
  | _ =>
    cases l with
    | moment n => cases hn : n.instant? <;> simp_all [isExact, same, whole?, sense]
    | _ => simp_all [isExact, same, whole?, sense]

end Atom

/-! ### What keys stand for -/

namespace Keyed

variable {α : Type} {key k : Atom} {name : String} {x y : α} {xs : List (Atom × α)}

@[simp] theorem find?_nil : find? key ([] : List (Atom × α)) = none := rfl

@[simp] theorem find?_cons :
    find? key ((k, x) :: xs) = if k.same key then some x else find? key xs := rfl

@[simp] theorem put_nil : put k x [] = [(k, x)] := rfl

@[simp] theorem put_cons :
    put key y ((k, x) :: xs) = if k.same key then (k, y) :: xs else (k, x) :: put key y xs := rfl

/-- A text is the same as no other key, so nothing is asked of the other keys here. -/
theorem find?_put_text : find? key (put (.text name) x xs) =
    if (Atom.text name).same key then some x else find? key xs := by
  induction xs with
  | nil => simp
  | cons e xs ih =>
    obtain ⟨k, y⟩ := e
    rw [put_cons]
    by_cases hk : k.same (.text name)
    · obtain rfl := Atom.same_text_iff.mp hk
      rw [if_pos hk, find?_cons, find?_cons]
      split <;> rfl
    · rw [if_neg hk, find?_cons, find?_cons, ih]
      by_cases hname : (Atom.text name).same key
      · obtain rfl := Atom.text_same_iff.mp hname
        rw [if_neg hk, if_pos hname, if_pos hname]
      · rw [if_neg hname, if_neg hname]

theorem put_of_find? (h : find? (.text name) xs = some x) : put (.text name) x xs = xs := by
  induction xs with
  | nil => simp at h
  | cons e xs ih =>
    obtain ⟨k, y⟩ := e
    by_cases hk : k.same (.text name) <;> simp_all

end Keyed

/-! ### Trees of entries -/

mutual

/-- Whether tables lie within each other to an end, with keys of a kind and none of them twice. -/
def Value.isTree (kind : Atom → Bool) : Value → Bool
  | .table es => Value.holdTrees kind es
  | .loop => false
  | _ => true

/-- Whether entries are those of such a table. -/
def Value.holdTrees (kind : Atom → Bool) : List (Atom × Value) → Bool
  | [] => true
  | (key, v) :: es =>
    kind key && es.all (fun e => !key.same e.1) && v.isTree kind && Value.holdTrees kind es

end

namespace Entries

variable {kind : Atom → Bool} {key k l : Atom} {v w : Value} {es fs : Entries}

@[simp] theorem find?_nil : find? key [] = none := rfl

@[simp] theorem find?_cons :
    find? key ((k, v) :: es) = if k.same key then some v else find? key es := rfl

@[simp] theorem put_nil : put k v [] = [(k, v)] := rfl

@[simp] theorem put_cons :
    put k v ((l, w) :: es) = if l.same k then (l, v) :: es else (l, w) :: put k v es := rfl

abbrev IsTree (kind : Atom → Bool) (es : Entries) : Prop :=
  (Value.table es).isTree kind

theorem isTree_cons : IsTree kind ((k, v) :: es) ↔
    kind k ∧ (∀ e ∈ es, k.same e.1 = false) ∧ v.isTree kind ∧ IsTree kind es := by
  simp [IsTree, Value.isTree, Value.holdTrees, and_assoc]

theorem find?_eq_none_iff : find? key es = none ↔ ∀ e ∈ es, e.1.same key = false := by
  induction es with
  | nil => simp
  | cons e es ih =>
    obtain ⟨k, v⟩ := e
    by_cases hk : k.same key <;> simp [hk, ih]

theorem exists_mem_of_find? (h : find? key es = some v) : ∃ k, k.same key ∧ (k, v) ∈ es := by
  induction es with
  | nil => simp at h
  | cons e es ih =>
    obtain ⟨k, w⟩ := e
    rw [find?_cons] at h
    split at h
    next hk =>
      obtain rfl := Option.some.inj h
      exact ⟨k, hk, List.mem_cons_self⟩
    · obtain ⟨l, hl, hmem⟩ := ih h
      exact ⟨l, hl, List.mem_cons_of_mem _ hmem⟩

theorem IsTree.of_mem (h : IsTree kind es) (hmem : (k, v) ∈ es) : kind k ∧ v.isTree kind := by
  induction es with
  | nil => simp at hmem
  | cons e es ih =>
    obtain ⟨l, w⟩ := e
    obtain ⟨hl, -, hw, hes⟩ := isTree_cons.mp h
    rcases List.mem_cons.mp hmem with heq | hmem
    · obtain ⟨rfl, rfl⟩ := Prod.mk.inj heq
      exact ⟨hl, hw⟩
    · exact ih hes hmem

theorem IsTree.of_find? (h : IsTree kind es) (hv : es.find? key = some v) : v.isTree kind := by
  obtain ⟨k, -, hmem⟩ := exists_mem_of_find? hv
  exact (h.of_mem hmem).2

theorem map_fst_put : (put k v es).map Prod.fst =
    es.map Prod.fst ++ if (find? k es).isNone then [k] else [] := by
  induction es with
  | nil => simp
  | cons e es ih =>
    obtain ⟨l, w⟩ := e
    by_cases hlk : l.same k <;> simp [hlk, ih]

theorem IsTree.put (hes : IsTree kind es) (hk : kind k) (hv : v.isTree kind) :
    IsTree kind (es.put k v) := by
  induction es with
  | nil => simpa [isTree_cons, hk, hv] using hes
  | cons e es ih =>
    obtain ⟨m, w⟩ := e
    obtain ⟨hm, hdistinct, hw, hes⟩ := isTree_cons.mp hes
    rw [put_cons]
    by_cases hmk : m.same k
    · rw [if_pos hmk, isTree_cons]
      exact ⟨hm, hdistinct, hv, hes⟩
    · rw [if_neg hmk, isTree_cons]
      refine ⟨hm, ?_, hw, ih hes⟩
      intro e he
      have hkeys := List.mem_map_of_mem (f := Prod.fst) he
      rw [map_fst_put, List.mem_append] at hkeys
      rcases hkeys with hkeys | hkeys
      · obtain ⟨e', he', heq⟩ := List.mem_map.mp hkeys
        rw [← heq]
        exact hdistinct e' he'
      · have heq : e.1 = k := by
          split at hkeys <;> simp_all
        simpa [heq] using hmk

/-- Induction from the tables that stand among the entries. -/
theorem induction {p : Entries → Prop}
    (h : ∀ es : Entries, (∀ key inner, es.find? key = some (.table inner) → p inner) → p es)
    (es : Entries) : p es := by
  apply h
  intro key inner hinner
  obtain ⟨k, -, hmem⟩ := exists_mem_of_find? hinner
  have hlt : sizeOf inner < sizeOf es := by
    have hsize := List.sizeOf_lt_of_mem hmem
    simp only [Prod.mk.sizeOf_spec, Value.table.sizeOf_spec] at hsize
    omega
  exact induction h inner
termination_by sizeOf es

section Comparable

variable (hkind : Atom.Comparable kind)
include hkind

theorem isNone_find?_of_mem (hes : IsTree kind es) (hmem : k ∈ es.map Prod.fst) :
    (find? k es).isNone = false := by
  obtain ⟨e, he, rfl⟩ := List.mem_map.mp hmem
  rw [← Bool.not_eq_true, Option.isNone_iff_eq_none, find?_eq_none_iff]
  intro hnone
  simpa [hkind.refl (hes.of_mem he).1] using hnone e he

theorem find?_congr (hes : IsTree kind es) (hk : kind k) (hl : kind l) (h : k.same l) :
    find? k es = find? l es := by
  induction es with
  | nil => rfl
  | cons e es ih =>
    obtain ⟨m, v⟩ := e
    obtain ⟨hm, -, -, hes⟩ := isTree_cons.mp hes
    have hsame : m.same k = m.same l := by
      rw [hkind.comm hm hk, hkind.comm hm hl, hkind.congr_left hk hl hm h]
    rw [find?_cons, find?_cons, hsame, ih hes]

/-- A key that is the same as the first one does not come again. -/
theorem IsTree.find?_tail (h : IsTree kind ((k, v) :: es)) (hl : kind l) (hkl : k.same l) :
    find? l es = none := by
  obtain ⟨hk, hdistinct, -, hes⟩ := isTree_cons.mp h
  rw [find?_eq_none_iff]
  intro e he
  have hke := hdistinct e he
  rwa [hkind.congr_left hk hl (hes.of_mem he).1 hkl, hkind.comm hl (hes.of_mem he).1] at hke

theorem find?_put (hes : IsTree kind es) (hk : kind k) (hl : kind l) :
    find? l (put k v es) = if k.same l then some v else find? l es := by
  induction es with
  | nil => simp
  | cons e es ih =>
    obtain ⟨m, w⟩ := e
    obtain ⟨hm, -, -, hes⟩ := isTree_cons.mp hes
    rw [put_cons]
    by_cases hmk : m.same k
    · have hsame : m.same l = k.same l := hkind.congr_left hm hk hl hmk
      rw [if_pos hmk, find?_cons, find?_cons, hsame]
      split <;> rfl
    · rw [if_neg hmk, find?_cons, find?_cons, ih hes]
      by_cases hkl : k.same l
      · have hml : ¬ m.same l := fun hml =>
          hmk (hkind.trans hm hl hk hml (hkind.symm hk hl hkl))
        simp [hml, hkl]
      · simp [hkl]

/-- Trees of entries are the same if they have the same keys in the same order and each key leads to
the same in both. -/
theorem IsTree.ext (hes : IsTree kind es) (hfs : IsTree kind fs)
    (hkeys : es.map Prod.fst = fs.map Prod.fst)
    (h : ∀ key, kind key → es.find? key = fs.find? key) : es = fs := by
  induction es generalizing fs with
  | nil =>
    have hnil : fs = [] := List.map_eq_nil_iff.mp hkeys.symm
    exact hnil.symm
  | cons e es ih =>
    obtain ⟨k, v⟩ := e
    obtain _ | ⟨⟨l, w⟩, fs⟩ := fs
    · simp at hkeys
    · rw [List.map_cons, List.map_cons, List.cons_eq_cons] at hkeys
      obtain ⟨rfl : k = l, htail⟩ := hkeys
      obtain ⟨hk, -, -, hes'⟩ := isTree_cons.mp hes
      obtain ⟨-, -, -, hfs'⟩ := isTree_cons.mp hfs
      have hself : k.same k = true := hkind.refl hk
      have hvalue : v = w := by simpa [hself] using h k hk
      have hrest : es = fs := by
        refine ih hes' hfs' htail fun key hkey => ?_
        by_cases hsame : k.same key
        · rw [hes.find?_tail hkind hkey hsame, hfs.find?_tail hkind hkey hsame]
        · simpa [hsame] using h key hkey
      rw [hvalue, hrest]

end Comparable

end Entries

end OptimalAssignment
