import Mathlib
import OptimalAssignment.Proofs.Settings.Assigning
import OptimalAssignment.Proofs.Settings.Sections

/-!
Settings in use in which no section stands at two places. Such settings are a tree: setting a plain
value in them is setting it in the tree, and no section comes to stand at two places by that.
-/
namespace OptimalAssignment

namespace Sections

mutual

/-- Whether something is what became of a given thing when it was set. The numbers are those of the
sections that were made of its tables; they are all different. -/
inductive Holds (σ : Sections) : Slot → Given → Finset ℕ → Prop
  | leaf (v : Value) : Holds σ (.leaf v) (.leaf v) ∅
  | known (n : ℕ) : Holds σ (.part n) (.part n) ∅
  | part {n : ℕ} {slots : Slots} {gs : List (Atom × Given)} {F : Finset ℕ}
    (hn : σ[n]? = some slots) (h : HoldAll σ slots gs F) (hF : n ∉ F) :
    Holds σ (.part n) (.table gs) (insert n F)

/-- Whether entries are what became of given ones. -/
inductive HoldAll (σ : Sections) : Slots → List (Atom × Given) → Finset ℕ → Prop
  | nil : HoldAll σ [] [] ∅
  | cons {key : Atom} {x : Slot} {g : Given} {slots : Slots} {gs : List (Atom × Given)}
    {F G : Finset ℕ} (hx : Holds σ x g F) (h : HoldAll σ slots gs G) (hFG : Disjoint F G) :
    HoldAll σ ((key, x) :: slots) ((key, g) :: gs) (F ∪ G)

end

mutual

theorem Holds.congr {σ τ : Sections} {x : Slot} {g : Given} {F : Finset ℕ} (h : Holds σ x g F)
    (hF : ∀ n ∈ F, τ[n]? = σ[n]?) : Holds τ x g F := by
  cases h with
  | leaf v => exact .leaf v
  | known n => exact .known n
  | part hn h hnot =>
    have hall : HoldAll τ _ _ _ := h.congr fun m hm => hF m (Finset.mem_insert_of_mem hm)
    exact .part ((hF _ (Finset.mem_insert_self _ _)).trans hn) hall hnot

theorem HoldAll.congr {σ τ : Sections} {slots : Slots} {gs : List (Atom × Given)} {F : Finset ℕ}
    (h : HoldAll σ slots gs F) (hF : ∀ n ∈ F, τ[n]? = σ[n]?) : HoldAll τ slots gs F := by
  cases h with
  | nil => exact .nil
  | cons hx h hFG =>
    exact .cons (hx.congr fun m hm => hF m (Finset.mem_union_left _ hm))
      (h.congr fun m hm => hF m (Finset.mem_union_right _ hm)) hFG

end

mutual

theorem Holds.lt_length {σ : Sections} {x : Slot} {g : Given} {F : Finset ℕ} {n : ℕ}
    (h : Holds σ x g F) (hn : n ∈ F) : n < σ.length := by
  cases h with
  | leaf v => simp at hn
  | known n => simp at hn
  | part hm h _ =>
    rcases Finset.mem_insert.mp hn with rfl | hn
    · exact (List.getElem?_eq_some_iff.mp hm).1
    · exact h.lt_length hn

theorem HoldAll.lt_length {σ : Sections} {slots : Slots} {gs : List (Atom × Given)}
    {F : Finset ℕ} {n : ℕ} (h : HoldAll σ slots gs F) (hn : n ∈ F) : n < σ.length := by
  cases h with
  | nil => simp at hn
  | cons hx h _ =>
    rcases Finset.mem_union.mp hn with hn | hn
    · exact hx.lt_length hn
    · exact h.lt_length hn

end

section Append

variable {σ : Sections} {F : Finset ℕ}

theorem Holds.append {x : Slot} {g : Given} (h : Holds σ x g F) (fresh : Sections) :
    Holds (σ ++ fresh) x g F :=
  h.congr fun _ hn => List.getElem?_append_left (h.lt_length hn)

theorem HoldAll.append {slots : Slots} {gs : List (Atom × Given)} (h : HoldAll σ slots gs F)
    (fresh : Sections) : HoldAll (σ ++ fresh) slots gs F :=
  h.congr fun _ hn => List.getElem?_append_left (h.lt_length hn)

end Append

/-! ### What is taken over -/

mutual

/-- A thing is taken over in new sections, beside those that were there. -/
theorem exists_take (g : Given) (σ : Sections) : ∃ fresh F, (take g σ).2 = σ ++ fresh ∧
    Holds (take g σ).2 (take g σ).1 g F ∧ ∀ n ∈ F, σ.length ≤ n :=
  match g with
  | .leaf v => ⟨[], ∅, by simp [take], by rw [take]; exact .leaf v, by simp⟩
  | .part n => ⟨[], ∅, by simp [take], by rw [take]; exact .known n, by simp⟩
  | .table gs => by
    obtain ⟨fresh, F, hσ, hall, hF⟩ := exists_takeAll gs σ
    have hnot : (takeAll gs σ).2.length ∉ F := fun hmem => lt_irrefl _ (hall.lt_length hmem)
    refine ⟨fresh ++ [(takeAll gs σ).1], insert (takeAll gs σ).2.length F, ?_, ?_, ?_⟩
    · rw [take, ← List.append_assoc, ← hσ]
    · rw [take]
      exact .part (by simp) (hall.append _) hnot
    · intro n hn
      rcases Finset.mem_insert.mp hn with rfl | hn
      · simp [hσ]
      · exact hF n hn

theorem exists_takeAll (gs : List (Atom × Given)) (σ : Sections) :
    ∃ fresh F, (takeAll gs σ).2 = σ ++ fresh ∧
      HoldAll (takeAll gs σ).2 (takeAll gs σ).1 gs F ∧ ∀ n ∈ F, σ.length ≤ n :=
  match gs with
  | [] => ⟨[], ∅, by simp [takeAll], by rw [takeAll]; exact .nil, by simp⟩
  | (key, g) :: gs => by
    obtain ⟨fresh, F, hσ, hx, hF⟩ := exists_take g σ
    obtain ⟨more, G, hτ, hall, hG⟩ := exists_takeAll gs (take g σ).2
    have hfar : Disjoint F G := Finset.disjoint_left.mpr fun n hn hn' =>
      absurd (hx.lt_length hn) (hG n hn').not_gt
    refine ⟨fresh ++ more, F ∪ G, ?_, ?_, ?_⟩
    · rw [takeAll, ← List.append_assoc, ← hσ, ← hτ]
    · rw [takeAll]
      refine .cons ?_ hall hfar
      rw [hτ]
      exact hx.append more
    · intro n hn
      rcases Finset.mem_union.mp hn with hn | hn
      · exact hF n hn
      · exact (by simp [hσ] : σ.length ≤ (take g σ).2.length).trans (hG n hn)

end

/-! ### What sections amount to -/

mutual

theorem tell_of_holds {σ : Sections} {x : Slot} (v : Value) {F : Finset ℕ} {depth : ℕ}
    (h : Holds σ x (.ofValue v) F) (hF : F.card ≤ depth) : σ.tell depth x = v := by
  cases v with
  | table es =>
    rw [Given.ofValue] at h
    cases h with
    | part hn hall hnot =>
      rw [Finset.card_insert_of_notMem hnot] at hF
      obtain _ | depth := depth
      · omega
      · rw [tell, slots, hn, Option.getD_some, map_tell_of_holdAll es hall (by omega)]
  | _ =>
    cases h with
    | leaf v => rw [tell]

theorem map_tell_of_holdAll {σ : Sections} {slots : Slots} (es : Entries) {F : Finset ℕ}
    {depth : ℕ} (h : HoldAll σ slots (Given.ofEntries es) F) (hF : F.card ≤ depth) :
    slots.map (fun (key, x) => (key, σ.tell depth x)) = es := by
  cases es with
  | nil =>
    rw [Given.ofEntries] at h
    cases h with
    | nil => rfl
  | cons e es =>
    obtain ⟨key, v⟩ := e
    rw [Given.ofEntries] at h
    cases h with
    | cons hx hall hFG =>
      rw [Finset.card_union_of_disjoint hFG] at hF
      rw [List.map_cons, map_tell_of_holdAll es hall (by omega)]
      dsimp only
      rw [tell_of_holds v hx (by omega)]

end

/-! ### One entry of a section -/

variable {σ τ : Sections} {x y : Slot} {slots : Slots} {F G R : Finset ℕ} {m n : ℕ}
  {name last : String} {p q names : List String} {v w : Value} {es : Entries}

theorem Holds.exists_table (h : Holds σ (.part n) (.ofValue v) F) : ∃ es slots G, v = .table es ∧
    σ[n]? = some slots ∧ HoldAll σ slots (Given.ofEntries es) G ∧ n ∉ G ∧ F = insert n G := by
  cases v with
  | table es =>
    rw [Given.ofValue] at h
    cases h with
    | part hn hall hnot => exact ⟨es, _, _, rfl, hn, hall, hnot, rfl⟩
  | _ => cases h

theorem Holds.of_leaf (h : Holds σ (.leaf w) (.ofValue v) F) : v = w ∧ v.isSection = false := by
  cases v with
  | table es =>
    rw [Given.ofValue] at h
    cases h
  | _ =>
    cases h
    exact ⟨rfl, rfl⟩

/-- What a name stands for among the entries of a section, by way of the sections `G`, and all the
rest of the entries, by way of the sections `R`. -/
structure Focus (σ : Sections) (slots : Slots) (es : Entries) (name : String) (F G R : Finset ℕ) :
    Prop where
  left_subset : G ⊆ F
  right_subset : R ⊆ F
  disjoint : Disjoint G R
  missing (h : Keyed.find? (.text name) slots = none) : Entries.find? (.text name) es = none
  here {x : Slot} (hx : Keyed.find? (.text name) slots = some x) :
    ∃ v, Entries.find? (.text name) es = some v ∧ Holds σ x (.ofValue v) G
  beside {other : String} {y : Slot} (h : other ≠ name)
    (hy : Keyed.find? (.text other) slots = some y) : ∃ w H, Holds σ y (.ofValue w) H ∧ H ⊆ R
  put {τ : Sections} {y : Slot} {w : Value} {H : Finset ℕ} (hR : ∀ n ∈ R, τ[n]? = σ[n]?)
    (hy : Holds τ y (.ofValue w) H) (hH : Disjoint H R) :
    HoldAll τ (Keyed.put (.text name) y slots)
      (Given.ofEntries (Entries.put (.text name) w es)) (H ∪ R)

theorem HoldAll.exists_focus (h : HoldAll σ slots (Given.ofEntries es) F) (name : String) :
    ∃ G R, Focus σ slots es name F G R := by
  induction es generalizing slots F name with
  | nil =>
    rw [Given.ofEntries] at h
    cases h
    refine ⟨∅, ∅, subset_rfl, subset_rfl, Finset.disjoint_empty_left _, fun _ => rfl, ?_, ?_, ?_⟩
    · intro x hx
      simp at hx
    · intro other y _ hy
      simp at hy
    · intro τ y w H _ hy hH
      exact .cons hy .nil hH
  | cons e es ih =>
    obtain ⟨key, v⟩ := e
    rw [Given.ofEntries] at h
    cases h with
    | @cons _ x _ slots _ F G hx hall hFG =>
    -- the name stands for the first entry, or for something among the rest
    by_cases hkey : key.same (.text name)
    · obtain rfl := Atom.same_text_iff.mp hkey
      refine ⟨F, G, Finset.subset_union_left, Finset.subset_union_right, hFG, ?_, ?_, ?_, ?_⟩
      · intro hnone
        simp at hnone
      · intro y hy
        obtain rfl : x = y := by simpa using hy
        exact ⟨v, by simp, hx⟩
      · intro other y hne hy
        obtain ⟨H, R, hfocus⟩ := ih hall other
        rw [Keyed.find?_cons, if_neg (by simpa using hne.symm)] at hy
        obtain ⟨w, -, hw⟩ := hfocus.here hy
        exact ⟨w, H, hw, hfocus.left_subset⟩
      · intro τ y w H hR hy hH
        rw [Keyed.put_cons, Entries.put_cons, if_pos hkey, if_pos hkey, Given.ofEntries]
        exact .cons hy (hall.congr hR) hH
    · obtain ⟨H, R, hfocus⟩ := ih hall name
      refine ⟨H, F ∪ R, hfocus.left_subset.trans Finset.subset_union_right,
        Finset.union_subset_union_right hfocus.right_subset, ?_, ?_, ?_, ?_, ?_⟩
      · exact Finset.disjoint_union_right.mpr
          ⟨(hFG.mono_right hfocus.left_subset).symm, hfocus.disjoint⟩
      · rw [Keyed.find?_cons, Entries.find?_cons, if_neg hkey, if_neg hkey]
        exact hfocus.missing
      · rw [Keyed.find?_cons, Entries.find?_cons, if_neg hkey, if_neg hkey]
        exact hfocus.here
      · intro other y hne hy
        rw [Keyed.find?_cons] at hy
        split at hy
        · obtain rfl := Option.some.inj hy
          exact ⟨v, F, hx, Finset.subset_union_left⟩
        · obtain ⟨w, H, hw, hH⟩ := hfocus.beside hne hy
          exact ⟨w, H, hw, hH.trans Finset.subset_union_right⟩
      · intro τ y w H' hR hy hH
        obtain ⟨hF, hrest⟩ := Finset.disjoint_union_right.mp hH
        rw [Keyed.put_cons, Entries.put_cons, if_neg hkey, if_neg hkey, Given.ofEntries,
          Finset.union_left_comm]
        refine .cons (hx.congr fun n hn => hR n (Finset.mem_union_left _ hn))
          (hfocus.put (fun n hn => hR n (Finset.mem_union_right _ hn)) hy hrest) ?_
        exact Finset.disjoint_union_right.mpr ⟨hF.symm, hFG.mono_right hfocus.right_subset⟩

/-! ### What names lead to -/

theorem Holds.mem_of_walk (h : Holds σ x (.ofValue v) F) (hn : σ.walk p x = some (.part n)) :
    n ∈ F := by
  induction p generalizing x v F with
  | nil =>
    obtain rfl : x = .part n := by simpa using hn
    obtain ⟨es, slots, G, -, -, -, -, rfl⟩ := h.exists_table
    exact Finset.mem_insert_self _ _
  | cons name p ih =>
    obtain ⟨m, rfl⟩ := exists_part_of_walk hn
    obtain ⟨es, slots, G, rfl, hm, hall, -, rfl⟩ := h.exists_table
    obtain ⟨H, R, hfocus⟩ := hall.exists_focus name
    rw [walk_cons_part, slots_of_getElem? hm] at hn
    obtain ⟨y, hy, hn⟩ := Option.bind_eq_some_iff.mp hn
    obtain ⟨w, -, hw⟩ := hfocus.here hy
    exact Finset.mem_insert_of_mem (hfocus.left_subset (ih hw hn))

theorem Holds.reach?_eq_none (h : Holds σ x (.ofValue v) F) (hp : σ.walk p x = none) :
    v.reach? (p.map .text) = none := by
  induction p generalizing x v F with
  | nil => simp at hp
  | cons name p ih =>
    cases x with
    | leaf u =>
      obtain ⟨rfl, hv⟩ := h.of_leaf
      rw [List.map_cons, Value.reach?_cons hv]
    | part m =>
      obtain ⟨es, slots, G, rfl, hm, hall, -, rfl⟩ := h.exists_table
      obtain ⟨H, R, hfocus⟩ := hall.exists_focus name
      rw [walk_cons_part, slots_of_getElem? hm] at hp
      rw [List.map_cons, Value.reach?_cons_table]
      cases hy : Keyed.find? (.text name) slots with
      | none => rw [hfocus.missing hy, Option.bind_none]
      | some y =>
        obtain ⟨w, hw, hholds⟩ := hfocus.here hy
        rw [hy, Option.bind_some] at hp
        rw [hw, Option.bind_some, ih hholds hp]

/-- What names lead to has sections of its own; none of them is found elsewhere. -/
theorem Holds.exists_of_walk (h : Holds σ x (.ofValue v) F) (hp : σ.walk p x = some y) :
    ∃ w G, v.reach? (p.map .text) = some w ∧ Holds σ y (.ofValue w) G ∧ G ⊆ F ∧
      ∀ q n, σ.walk q x = some (.part n) → ¬ p <+: q → n ∉ G := by
  induction p generalizing x v F with
  | nil =>
    obtain rfl : x = y := by simpa using hp
    exact ⟨v, F, by simp, h, subset_rfl, fun q _ _ hq => absurd List.nil_prefix hq⟩
  | cons name p ih =>
    obtain ⟨m, rfl⟩ := exists_part_of_walk hp
    obtain ⟨es, slots, F, rfl, hm, hall, hnot, rfl⟩ := h.exists_table
    obtain ⟨H, R, hfocus⟩ := hall.exists_focus name
    rw [walk_cons_part, slots_of_getElem? hm] at hp
    obtain ⟨z, hz, hp⟩ := Option.bind_eq_some_iff.mp hp
    obtain ⟨u, hu, hholds⟩ := hfocus.here hz
    obtain ⟨w, G, hw, hG, hsub, hfar⟩ := ih hholds hp
    have hsub' : G ⊆ F := hsub.trans hfocus.left_subset
    refine ⟨w, G, ?_, hG, hsub'.trans (Finset.subset_insert _ _), fun q n hq hpq hn => ?_⟩
    · rw [List.map_cons, Value.reach?_cons_table, hu, Option.bind_some, hw]
    obtain _ | ⟨other, q⟩ := q
    · obtain rfl : m = n := by simpa using hq
      exact hnot (hsub' hn)
    rw [walk_cons_part, slots_of_getElem? hm] at hq
    obtain ⟨z', hz', hq⟩ := Option.bind_eq_some_iff.mp hq
    by_cases hne : other = name
    · subst hne
      obtain rfl : z = z' := Option.some.inj (hz.symm.trans hz')
      exact hfar q n hq (fun hlead => hpq (List.cons_prefix_cons.mpr ⟨rfl, hlead⟩)) hn
    · obtain ⟨u', R', hholds', hR'⟩ := hfocus.beside hne hz'
      exact Finset.disjoint_left.mp hfocus.disjoint (hsub hn) (hR' (hholds'.mem_of_walk hq))

theorem Holds.separate (h : Holds σ x (.ofValue v) F) : Separate σ x := by
  -- of two ways to one section each leads along the other, or the section would be met elsewhere
  have hlead {p q : List String} {n : ℕ} (hp : σ.walk p x = some (.part n))
      (hq : σ.walk q x = some (.part n)) : p <+: q := by
    by_contra hpq
    obtain ⟨w, G, -, hG, -, hfar⟩ := h.exists_of_walk hp
    exact hfar q n hq hpq (hG.mem_of_walk walk_nil)
  exact ⟨fun hn => h.lt_length (h.mem_of_walk hn),
    fun hp hq => (hlead hp hq).eq_of_length_le (hlead hq hp).length_le⟩

/-! ### Plain values that are set -/

theorem getElem?_of_changed (h : Changed σ τ n name y) (hn : σ[n]? = some slots)
    (hlt : n < τ.length) : τ[n]? = some (Keyed.put (.text name) y slots) := by
  have hhere := h.here
  rw [slots_of_getElem? hn, Sections.slots, List.getElem?_eq_getElem hlt, Option.getD_some] at hhere
  rw [List.getElem?_eq_getElem hlt, hhere]

/-- The first step of a way: to the section that the name stands for, or to one that is made. -/
theorem Focus.exists_step (h : Focus σ slots es name F G R) (hn : σ[n]? = some slots)
    (names : List String) : ∃ k σ' G',
    makeWay (name :: names) n σ = makeWay names k σ' ∧
    σ'[n]? = some (Keyed.put (.text name) (.part k) slots) ∧
    (∀ m < σ.length, n ≠ m → σ'[m]? = σ[m]?) ∧ σ.length ≤ σ'.length ∧
    Holds σ' (.part k)
      (.ofValue (.table (((Entries.find? (.text name) es).map Value.entries).getD []))) G' ∧
    ∀ m ∈ G', m ∈ G ∨ σ.length ≤ m := by
  have hlt : n < σ.length := (List.getElem?_eq_some_iff.mp hn).1
  have hslots : σ.slots n = slots := slots_of_getElem? hn
  obtain ⟨k, hk, hstep⟩ | ⟨hslot, hstep⟩ := makeWay_cases name names n σ
  · rw [hslots] at hk
    obtain ⟨w, hw, hholds⟩ := h.here hk
    obtain ⟨inner, -, -, rfl, -⟩ := hholds.exists_table
    refine ⟨k, σ, G, hstep, ?_, fun _ _ _ => rfl, le_rfl, ?_, fun _ => .inl⟩
    · rw [hn, Keyed.put_of_find? hk]
    · rwa [hw]
  · rw [hslots] at hslot
    -- in the tree, too, an empty table takes the place of what stood there
    have hinner : ((Entries.find? (.text name) es).map Value.entries).getD [] = [] := by
      cases hx : Keyed.find? (.text name) slots with
      | none => rw [h.missing hx]; rfl
      | some x =>
        obtain ⟨w, hw, hholds⟩ := h.here hx
        cases x with
        | part k => exact absurd hx (hslot k)
        | leaf u =>
          obtain ⟨rfl, hu⟩ := hholds.of_leaf
          rw [hw]
          cases w <;> first | rfl | simp [Value.isSection] at hu
    have hchanged : Changed σ (σ.make n name) n name (.part σ.length) := changed_make hlt
    refine ⟨σ.length, σ.make n name, {σ.length}, hstep,
      getElem?_of_changed hchanged hn (by simpa using hlt.le),
      fun m hm => hchanged.beside hm, by simp, ?_, ?_⟩
    · rw [hinner]
      exact .part (by simp) .nil (by simp)
    · intro m hm
      exact .inr (Finset.mem_singleton.mp hm).ge

/-- A name of a section stands for something else, which has nothing in common with what stands
beside it. -/
theorem Focus.exists_holds (h : Focus σ slots es name F G R) {H : Finset ℕ} (hlt : n < σ.length)
    (hF : ∀ m ∈ F, m < σ.length) (hnot : n ∉ F)
    (hn : τ[n]? = some (Keyed.put (.text name) y slots))
    (hbeside : ∀ m < σ.length, n ≠ m → m ∉ G → τ[m]? = σ[m]?)
    (hy : Holds τ y (.ofValue w) H) (hH : ∀ m ∈ H, m ∈ G ∨ σ.length ≤ m) : ∃ F',
    Holds τ (.part n) (.ofValue (.table (Entries.put (.text name) w es))) F' ∧
    (∀ m < σ.length, m ∉ insert n F → τ[m]? = σ[m]?) ∧
    ∀ m ∈ F', m ∈ insert n F ∨ σ.length ≤ m := by
  have hRlt : ∀ m ∈ R, m < σ.length := fun m hm => hF m (h.right_subset hm)
  have hRG : ∀ m ∈ R, m ∉ G := fun m hm hmG => Finset.disjoint_left.mp h.disjoint hmG hm
  have hRn : ∀ m ∈ R, n ≠ m := by
    rintro m hm rfl
    exact hnot (h.right_subset hm)
  have hall := h.put (fun m hm => hbeside m (hRlt m hm) (hRn m hm) (hRG m hm)) hy
    (Finset.disjoint_left.mpr fun m hm hm' => (hH m hm).elim (hRG m hm') (hRlt m hm').not_ge)
  have hnew : n ∉ H ∪ R := by
    rw [Finset.mem_union]
    rintro (hmem | hmem)
    · exact (hH n hmem).elim (fun hmG => hnot (h.left_subset hmG)) hlt.not_ge
    · exact hRn n hmem rfl
  refine ⟨insert n (H ∪ R), .part hn hall hnew, fun m hm hmF => ?_, fun m hm => ?_⟩
  · rw [Finset.mem_insert, not_or] at hmF
    exact hbeside m hm (Ne.symm hmF.1) fun hmG => hmF.2 (h.left_subset hmG)
  · rcases Finset.mem_insert.mp hm with rfl | hm
    · exact .inl (Finset.mem_insert_self _ _)
    rcases Finset.mem_union.mp hm with hm | hm
    · exact (hH m hm).imp (fun hmG => Finset.mem_insert_of_mem (h.left_subset hmG)) id
    · exact .inl (Finset.mem_insert_of_mem (h.right_subset hm))

theorem changed_assign {g : Given} (hn : n < σ.length) :
    Changed σ (assign n last g σ) n last (take g σ).1 := by
  obtain ⟨fresh, -, htake, -⟩ := exists_take g σ
  exact changed_put hn fun m hm => by rw [htake, List.getElem?_append_left hm]

theorem length_le_assign {g : Given} : σ.length ≤ (assign n last g σ).length := by
  obtain ⟨fresh, -, htake, -⟩ := exists_take g σ
  simp [assign_eq, htake]

/-- What is set has sections of its own, all of them new. -/
theorem exists_holds_assign (last : String) (g : Given) (hn : n < σ.length) : ∃ F,
    Holds (assign n last g σ) (take g σ).1 g F ∧ ∀ m ∈ F, σ.length ≤ m := by
  obtain ⟨fresh, F, -, hholds, hF⟩ := exists_take g σ
  refine ⟨F, hholds.congr fun m hm => ?_, hF⟩
  simp [assign_eq, put, (hn.trans_le (hF m hm)).ne]

/-- Setting a plain value along names of a section is setting it in the value of the section. Other
sections stay as they are. -/
theorem Holds.assign_makeWay (h : Holds σ (.part n) (.ofValue (.table es)) F)
    (names : List String) (last : String) (v : Value) : ∃ F',
    Holds (assign (makeWay names n σ).1 last (.ofValue v) (makeWay names n σ).2) (.part n)
      (.ofValue (.table (Entries.setAt (names ++ [last]) v es))) F' ∧
    (∀ m < σ.length, m ∉ F →
      (assign (makeWay names n σ).1 last (.ofValue v) (makeWay names n σ).2)[m]? = σ[m]?) ∧
    ∀ m ∈ F', m ∈ F ∨ σ.length ≤ m := by
  induction names generalizing σ n es F with
  | nil =>
    obtain ⟨es, slots, F, ⟨⟩, hn, hall, hnot, rfl⟩ := h.exists_table
    have hlt : n < σ.length := (List.getElem?_eq_some_iff.mp hn).1
    obtain ⟨G, R, hfocus⟩ := hall.exists_focus last
    obtain ⟨H, hy, hH⟩ := exists_holds_assign last (.ofValue v) hlt
    have hchanged : Changed σ (assign n last (.ofValue v) σ) n last _ := changed_assign hlt
    exact hfocus.exists_holds hlt (fun m => hall.lt_length) hnot
      (getElem?_of_changed hchanged hn (hlt.trans_le length_le_assign))
      (fun m hm hne _ => hchanged.beside hm hne) hy fun m hm => .inr (hH m hm)
  | cons name names ih =>
    obtain ⟨es, slots, F, ⟨⟩, hn, hall, hnot, rfl⟩ := h.exists_table
    have hlt : n < σ.length := (List.getElem?_eq_some_iff.mp hn).1
    obtain ⟨G, R, hfocus⟩ := hall.exists_focus name
    obtain ⟨k, σ', G', hway, hn', hagree, hle, hholds, hG'⟩ :=
      hfocus.exists_step hn names
    obtain ⟨H, hH, hframe, hnew⟩ := ih hholds
    rw [hway, List.cons_append, Entries.setAt_cons (by simp)]
    have hbeside {m : ℕ} (hm : m < σ.length) (hmG : m ∉ G) :=
      hframe m (hm.trans_le hle) fun hmem => (hG' m hmem).elim hmG hm.not_ge
    refine hfocus.exists_holds hlt (fun m => hall.lt_length) hnot
      ((hbeside hlt fun hmem => hnot (hfocus.left_subset hmem)).trans hn')
      (fun m hm hne hmG => (hbeside hm hmG).trans (hagree m hm hne)) hH
      fun m hm => (hnew m hm).elim (hG' m) fun hle' => .inr (hle.trans hle')

end Sections

/-! ### Settings without a section at two places -/

namespace LiveSettings

variable {s : LiveSettings} {k : String} {v : Value}

/-- Whether the settings are a tree: no section stands at two places, and none within itself. -/
def Apart (s : LiveSettings) : Prop :=
  ∃ es F, s.sections.Holds (.part s.top) (.ofValue (.table es)) F

theorem tell_of_holds {x : Slot} {F : Finset ℕ} (h : s.sections.Holds x (.ofValue v) F) :
    s.tell x = v := by
  refine Sections.tell_of_holds v h ?_
  have hsub : F ⊆ Finset.range s.sections.length := fun n hn =>
    Finset.mem_range.mpr (h.lt_length hn)
  simpa using Finset.card_le_card hsub

theorem settings_of_holds {es : Entries} {F : Finset ℕ}
    (h : s.sections.Holds (.part s.top) (.ofValue (.table es)) F) : s.settings = ⟨es⟩ := by
  rw [settings, tell_of_holds h, Value.entries]

theorem Apart.exists_holds (hs : s.Apart) :
    ∃ F, s.sections.Holds (.part s.top) (.ofValue (.table s.settings.entries)) F := by
  obtain ⟨es, F, h⟩ := hs
  exact ⟨F, settings_of_holds h ▸ h⟩

/-- Plain settings are taken into use as they are. -/
theorem apart_of (s : Settings) : (of s).Apart ∧ (of s).settings = s := by
  obtain ⟨fresh, F, hσ, hall, hF⟩ := Sections.exists_takeAll (Given.ofEntries s.entries) []
  have hnot : (Sections.takeAll (Given.ofEntries s.entries) []).2.length ∉ F := fun hmem =>
    lt_irrefl _ (hall.lt_length hmem)
  have hholds : (of s).sections.Holds (.part (of s).top) (.ofValue (.table s.entries)) _ :=
    .part (by simp [of]) (hall.append _) hnot
  exact ⟨⟨_, _, hholds⟩, settings_of_holds hholds⟩

theorem Apart.separate (hs : s.Apart) : s.sections.Separate (.part s.top) := by
  obtain ⟨es, F, h⟩ := hs
  exact h.separate

theorem set_eq {names : List String} {last : String} {g : Given}
    (h : pathNames k = names ++ [last]) : s.set k g =
      ⟨Sections.assign (Sections.makeWay names s.top s.sections).1 last g
        (Sections.makeWay names s.top s.sections).2, s.top⟩ := by
  simp [set, put, h]

/-- A plain value is set as in a tree, and no section comes to stand at two places. -/
theorem Apart.set (hs : s.Apart) :
    (s.set k (.ofValue v)).Apart ∧ (s.set k (.ofValue v)).settings = s.settings.set k v := by
  obtain ⟨F, h⟩ := hs.exists_holds
  obtain ⟨names, last, hk⟩ := exists_pathNames_eq k
  obtain ⟨F', h', -⟩ := h.assign_makeWay names last v
  rw [set_eq hk, Settings.set, hk]
  exact ⟨⟨_, _, h'⟩, settings_of_holds h'⟩

theorem Apart.value?_eq (hs : s.Apart) : s.value? k = s.settings.get? k := by
  obtain ⟨F, h⟩ := hs.exists_holds
  rw [Settings.get?_eq, value?, get?]
  cases hx : s.sections.walk (pathNames k) (.part s.top) with
  | none => rw [h.reach?_eq_none hx, Option.map_none]
  | some x =>
    obtain ⟨w, G, hw, hG, -⟩ := h.exists_of_walk hx
    rw [hw, Option.map_some, tell_of_holds hG]

end LiveSettings

end OptimalAssignment
