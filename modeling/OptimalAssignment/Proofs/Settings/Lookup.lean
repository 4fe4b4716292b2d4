import Mathlib
import OptimalAssignment.Proofs.Settings.Apart
import OptimalAssignment.Proofs.Settings.Reordering

/-!
What dotted keys find after one of them was set. The key finds what it was set to, a longer one
looks on in that, a shorter one finds a section, and any other key finds what it found before. So
keys that do not lead along each other may be set in either order, up to the order of entries. All
this is said of settings without a section at two places: what is set in a section is seen wherever
it stands.
-/
namespace OptimalAssignment

variable {name : String} {names others : List String} {v w : Value} {es : Entries}

namespace Entries

open Value

/-- What stands under the first name of a path once a value is set at the path, by the names that
are left and what stood there. -/
def setBelow (names : List String) (v : Value) (old : Option Value) : Value :=
  if names = [] then v else .table (setAt names v ((old.map Value.entries).getD []))

theorem setAt_eq_put : setAt (name :: names) v es =
    put (.text name) (setBelow names v (find? (.text name) es)) es := by
  rw [setBelow]
  split
  next h => rw [h, setAt_singleton]
  next h => rw [setAt_cons h]

theorem setAt_setAt_cons (h : names ≠ []) (h' : others ≠ []) :
    setAt (name :: others) w (setAt (name :: names) v es) =
      put (.text name) (.table (setAt others w
        (setAt names v (((find? (.text name) es).map Value.entries).getD [])))) es := by
  rw [setAt_cons h', setAt_cons h, put_put_text]
  simp [find?_put_text, Value.entries]

/-- Values are set at paths that do not lead along each other in either order. -/
theorem reordered_setAt_setAt (hlong : ¬ names <+: others) (hshort : ¬ others <+: names) :
    Reordered (setAt others w (setAt names v es)) (setAt names v (setAt others w es)) := by
  induction names generalizing others es with
  | nil => simp at hlong
  | cons name names ih =>
    obtain _ | ⟨other, others⟩ := others
    · simp at hshort
    rw [List.cons_prefix_cons] at hlong hshort
    by_cases hname : name = other
    · subst hname
      have hlong' : ¬ names <+: others := fun h => hlong ⟨rfl, h⟩
      have hshort' : ¬ others <+: names := fun h => hshort ⟨rfl, h⟩
      have hnames : names ≠ [] := by
        rintro rfl
        simp at hlong'
      have hothers : others ≠ [] := by
        rintro rfl
        simp at hshort'
      rw [setAt_setAt_cons hnames hothers, setAt_setAt_cons hothers hnames]
      exact (ih hlong' hshort').put_table
    · have hne : other ≠ name := Ne.symm hname
      simp only [setAt_eq_put, find?_put_text, Atom.same_text, beq_iff_eq, hname, hne, if_false]
      exact reordered_put_put hname

end Entries

/-! ### Looking on in what was set -/

/-- What was found, as something to be set. -/
def Slot.given : Slot → Given
  | .leaf v => .leaf v
  | .part n => .part n

/-- What names lead to in a given thing: in the entries of a table, or on from a section in use. -/
def Given.inside (σ : Sections) : List String → Given → Option Given
  | [], g => some g
  | name :: names, .table gs => (Keyed.find? (.text name) gs).bind (inside σ names)
  | name :: names, .part n => (σ.walk (name :: names) (.part n)).map Slot.given
  | _ :: _, .leaf _ => none

namespace Sections

variable {σ τ : Sections} {x y : Slot} {slots : Slots} {g : Given} {gs : List (Atom × Given)}
  {F : Finset ℕ} {key : Atom} {m n : ℕ} {last : String} {p q : List String}

/-- Whether what is found, if anything is, is what became of a given thing. -/
def Finds (σ : Sections) : Option Slot → Option Given → Prop
  | some x, some g => ∃ F, σ.Holds x g F
  | none, none => True
  | _, _ => False

theorem Finds.eq_part {found : Option Slot} (h : σ.Finds found (some (.part n))) :
    found = some (.part n) := by
  match found, h with
  | some x, ⟨F, h⟩ =>
    cases h
    rfl

theorem HoldAll.find? (h : σ.HoldAll slots gs F) (key : Atom) :
    σ.Finds (Keyed.find? key slots) (Keyed.find? key gs) := by
  induction gs generalizing slots F with
  | nil =>
    cases h
    trivial
  | cons e gs ih =>
    cases h with
    | @cons k _ _ _ _ F G hx hall _ =>
      rw [Keyed.find?_cons, Keyed.find?_cons]
      split
      · exact ⟨F, hx⟩
      · exact ih hall

theorem holds_given (x : Slot) : σ.Holds x x.given ∅ := by
  cases x with
  | leaf v => exact .leaf v
  | part n => exact .known n

/-- Names lead on in what was set as they do in what it was set to. -/
theorem Holds.finds_walk (h : σ.Holds x g F) (names : List String) :
    σ.Finds (σ.walk names x) (g.inside σ names) := by
  induction names generalizing x g F with
  | nil =>
    rw [walk_nil, Given.inside]
    exact ⟨F, h⟩
  | cons name names ih =>
    cases h with
    | leaf v =>
      rw [walk_cons_leaf, Given.inside]
      trivial
    | known n =>
      rw [Given.inside]
      cases hy : σ.walk (name :: names) (.part n) with
      | none => trivial
      | some y => exact ⟨∅, holds_given y⟩
    | part hn hall _ =>
      rw [walk_cons_part, slots_of_getElem? hn, Given.inside]
      have hfinds := hall.find? (.text name)
      generalize Keyed.find? (.text name) _ = y at hfinds ⊢
      generalize Keyed.find? (.text name) _ = g' at hfinds ⊢
      match y, g' with
      | none, none => trivial
      | some y, some g' =>
        obtain ⟨G, hy⟩ := hfinds
        exact ih hy

end Sections

/-! ### Dotted keys -/

namespace LiveSettings

variable {s : LiveSettings} {k l : String} {g : Given} {v w : Value} {rest : List String}

/-- Whether a key finds in settings what it should if, in other settings, a key was set to a given
thing. -/
structure FoundAfterSet (s : LiveSettings) (k : String) (g : Given) (t : LiveSettings)
    (l : String) : Prop where
  /-- The key itself finds what it was set to. -/
  same (h : pathNames l = pathNames k) : t.sections.Finds (t.get? l) (some g)
  /-- A longer key looks on in that. -/
  longer {rest : List String} (h : pathNames l = pathNames k ++ rest) :
    t.sections.Finds (t.get? l) (g.inside t.sections rest)
  /-- A shorter key finds a section through which the key finds what it was set to. -/
  shorter {rest : List String} (h : pathNames k = pathNames l ++ rest) (hrest : rest ≠ []) :
    ∃ n, t.get? l = some (.part n) ∧ t.sections.walk rest (.part n) = t.get? k
  /-- Any other key finds what it found before, and that is the same value as before. -/
  apart (hlong : ¬ pathNames k <+: pathNames l) (hshort : ¬ pathNames l <+: pathNames k) :
    t.get? l = s.get? l ∧ t.value? l = s.value? l

/-- How a key is set: the way to its last name is made, by which the sections become `σ`, and in the
section at its end, `m`, the last name comes to stand for `x`. -/
structure Course (s : LiveSettings) (k : String) (g : Given) (names : List String) (last : String)
    (σ : Sections) (m : ℕ) (x : Slot) : Prop where
  path : pathNames k = names ++ [last]
  separate : σ.Separate (.part s.top)
  way : σ.walk names (.part s.top) = some (.part m)
  beside (q : List String) (hq : ¬ q <+: names) :
    σ.walk q (.part s.top) = s.sections.walk q (.part s.top)
  changed : σ.Changed (s.set k g).sections m last x
  holds : ∃ F, (s.set k g).sections.Holds x g F
  top_eq : (s.set k g).top = s.top
  /-- Sections that are not on the way stay as they are. -/
  frame {n : ℕ} (hn : n < s.sections.length)
    (h : ∀ p, p <+: names → s.sections.walk p (.part s.top) ≠ some (.part n)) :
    (s.set k g).sections[n]? = s.sections[n]?

theorem Apart.exists_course (hs : s.Apart) (k : String) (g : Given) :
    ∃ names last σ m x, Course s k g names last σ m x := by
  obtain ⟨names, last, hk⟩ := exists_pathNames_eq k
  have hmade := hs.separate.makeWay Sections.walk_nil names
  rw [List.nil_append] at hmade
  obtain ⟨hseparate, hway, hbeside⟩ := hmade
  have hlt := hseparate.lt_length hway
  obtain ⟨F, hholds, -⟩ := Sections.exists_holds_assign last g hlt
  have hset := set_eq (s := s) (g := g) hk
  refine ⟨names, last, _, _, (Sections.take g (Sections.makeWay names s.top s.sections).2).1,
    { path := hk, separate := hseparate, way := hway, beside := hbeside, changed := ?_,
      holds := ⟨F, ?_⟩, top_eq := ?_, frame := fun hn h => ?_ }⟩
  · rw [hset]
    exact Sections.changed_assign hlt
  · rwa [hset]
  · rw [hset]
  · obtain ⟨hne, hsame, hlt'⟩ := Sections.makeWay_beside hn h
    rw [hset, ← hsame]
    exact (Sections.changed_assign hlt).beside hlt' hne

section Course

variable {names : List String} {last : String} {σ : Sections} {m : ℕ} {x : Slot}
  (h : Course s k g names last σ m x)
include h

theorem Course.get?_of_append (hl : pathNames l = pathNames k ++ rest) :
    (s.set k g).get? l = (s.set k g).sections.walk rest x := by
  rw [get?, hl, h.path, List.append_assoc, List.singleton_append, h.top_eq]
  exact h.separate.walk_through h.way h.changed

theorem Course.get?_of_not_prefix (hl : ¬ pathNames k <+: pathNames l) :
    (s.set k g).get? l = σ.walk (pathNames l) (.part s.top) := by
  rw [h.path] at hl
  rw [get?, h.top_eq, h.separate.walk_of_not_prefix h.way h.changed hl]

theorem Course.exists_get? (hl : pathNames k = pathNames l ++ rest) (hrest : rest ≠ []) :
    ∃ n, (s.set k g).get? l = some (.part n) := by
  obtain ⟨init, last', rfl⟩ := rest.eq_nil_or_concat'.resolve_left hrest
  have hnames : names = pathNames l ++ init := by
    rw [h.path, ← List.append_assoc] at hl
    exact (List.append_inj' hl rfl).1
  have hnot : ¬ pathNames k <+: pathNames l := fun hlead => by
    have hlength := hlead.length_le
    rw [hl] at hlength
    simp at hlength
  have hway := h.way
  rw [hnames, Sections.walk_append] at hway
  obtain ⟨y, hy, hinit⟩ := Option.bind_eq_some_iff.mp hway
  rw [h.get?_of_not_prefix hnot, hy]
  cases init with
  | nil => exact ⟨m, by simpa using hinit⟩
  | cons name init =>
    obtain ⟨n, rfl⟩ := Sections.exists_part_of_walk hinit
    exact ⟨n, rfl⟩

theorem Course.get?_of_apart (hlong : ¬ pathNames k <+: pathNames l)
    (hshort : ¬ pathNames l <+: pathNames k) : (s.set k g).get? l = s.get? l := by
  rw [h.get?_of_not_prefix hlong, get?]
  refine h.beside _ fun hlead => hshort ?_
  rw [h.path]
  exact hlead.trans (List.prefix_append _ _)

/-- What a key finds that does not lead along the one that is set has none of its sections on the
way. -/
theorem Course.value?_of_apart (hs : s.Apart) (hlong : ¬ pathNames k <+: pathNames l)
    (hshort : ¬ pathNames l <+: pathNames k) : (s.set k g).value? l = s.value? l := by
  obtain ⟨es, F, hholds⟩ := hs
  rw [value?, value?, h.get?_of_apart hlong hshort]
  cases hy : s.get? l with
  | none => rfl
  | some y =>
    obtain ⟨w, G, -, hG, -, hfar⟩ := hholds.exists_of_walk hy
    have hstill : (s.set k g).sections.Holds y (.ofValue w) G := by
      refine hG.congr fun n hn => h.frame (hG.lt_length hn) fun p hp hwalk => ?_
      refine hfar p n hwalk (fun hlead => hshort ?_) hn
      rw [h.path]
      exact (hlead.trans hp).trans (List.prefix_append _ _)
    rw [Option.map_some, Option.map_some, tell_of_holds hG, tell_of_holds hstill]

end Course

theorem Apart.foundAfterSet (hs : s.Apart) (k : String) (g : Given) (l : String) :
    FoundAfterSet s k g (s.set k g) l := by
  obtain ⟨names, last, σ, m, x, h⟩ := hs.exists_course k g
  obtain ⟨F, hx⟩ := h.holds
  refine ⟨fun hl => ?_, fun hl => ?_, fun {rest} hl hrest => ?_, fun hlong hshort =>
    ⟨h.get?_of_apart hlong hshort, h.value?_of_apart hs hlong hshort⟩⟩
  · rw [h.get?_of_append (hl.trans (List.append_nil _).symm)]
    exact hx.finds_walk []
  · rw [h.get?_of_append hl]
    exact hx.finds_walk _
  · obtain ⟨n, hn⟩ := h.exists_get? hl hrest
    have hwalk := hn
    rw [get?] at hwalk
    exact ⟨n, hn, by rw [get?, hl, Sections.walk_append, hwalk, Option.bind_some]⟩

/-! ### Plain values -/

theorem Apart.value?_set (hs : s.Apart) (h : pathNames l = pathNames k ++ rest) :
    (s.set k (.ofValue v)).value? l = v.lookup rest := by
  obtain ⟨hapart, hsettings⟩ := hs.set (k := k) (v := v)
  rw [hapart.value?_eq, hsettings, Settings.get?_eq, h, List.map_append, Settings.set,
    Entries.reach?_setAt_append pathNames_ne_nil, Value.lookup_eq]

theorem Apart.reordered_set_set (hs : s.Apart) (hlong : ¬ pathNames k <+: pathNames l)
    (hshort : ¬ pathNames l <+: pathNames k) :
    Entries.Reordered ((s.set k (.ofValue v)).set l (.ofValue w)).settings.entries
      ((s.set l (.ofValue w)).set k (.ofValue v)).settings.entries := by
  obtain ⟨hk, hk'⟩ := hs.set (k := k) (v := v)
  obtain ⟨hl, hl'⟩ := hs.set (k := l) (v := w)
  rw [hk.set.2, hl.set.2, hk', hl']
  exact Entries.reordered_setAt_setAt hlong hshort

end LiveSettings

end OptimalAssignment
