import Mathlib
import OptimalAssignment.Settings.Desk
import OptimalAssignment.Settings.Options
import OptimalAssignment.Proofs.Settings.Apart

/-!
Options that override settings. They are collected by their keys before they are applied, so a key
takes its last value at its first place. What stands at a path afterwards is settled by the last key
that touches the path. Applying the options one by one comes to the same, unless all options of a
key stand between two options of a key that it conflicts with.
-/
namespace OptimalAssignment

/-! ### Names collected in the order in which they first came up -/

namespace Named

variable {β : Type} {k l : String} {x y : β} {pairs xs ys : List (String × β)}

/-- Every name once, at its first place and with its last thing. -/
def collect (pairs : List (String × β)) : List (String × β) :=
  pairs.foldl (fun xs o => put o.1 o.2 xs) []

@[simp] theorem collect_nil : collect ([] : List (String × β)) = [] := rfl

@[simp] theorem collect_concat : collect (pairs ++ [(k, x)]) = put k x (collect pairs) := by
  rw [collect, List.foldl_concat, collect]

theorem map_fst_put : (put k x xs).map Prod.fst =
    if k ∈ xs.map Prod.fst then xs.map Prod.fst else xs.map Prod.fst ++ [k] := by
  induction xs with
  | nil => simp [put]
  | cons e xs ih =>
    obtain ⟨l, y⟩ := e
    by_cases h : l = k
    · simp [put, h]
    · have hne : k ≠ l := Ne.symm h
      simp only [put, if_neg h, List.map_cons, ih, List.mem_cons, hne, false_or]
      split <;> rfl

theorem mem_keys_collect : k ∈ (collect pairs).map Prod.fst ↔ k ∈ pairs.map Prod.fst := by
  induction pairs using List.reverseRecOn with
  | nil => simp
  | append_singleton pairs o ih =>
    obtain ⟨l, y⟩ := o
    rw [collect_concat, map_fst_put, List.map_append, List.mem_append, ← ih, List.map_singleton]
    split
    next hl =>
      rw [List.mem_singleton]
      exact ⟨.inl, fun h => h.elim id fun heq => heq ▸ hl⟩
    · rw [List.mem_append]

theorem nodup_keys_collect : ((collect pairs).map Prod.fst).Nodup := by
  induction pairs using List.reverseRecOn with
  | nil => simp
  | append_singleton pairs o ih =>
    obtain ⟨l, y⟩ := o
    rw [collect_concat, map_fst_put]
    split
    · exact ih
    next hl =>
      have hconcat := List.Nodup.concat hl ih
      rwa [List.concat_eq_append] at hconcat

theorem map_fst_collect : (collect pairs).map Prod.fst = (pairs.map Prod.fst).eraseDups := by
  induction pairs using List.reverseRecOn with
  | nil => simp
  | append_singleton pairs o ih =>
    obtain ⟨l, y⟩ := o
    rw [collect_concat, map_fst_put, List.map_append, List.map_singleton, List.eraseDups_append, ih]
    by_cases hl : l ∈ pairs.map Prod.fst <;> simp [hl, List.removeAll, List.eraseDups_cons]

/-- What comes before a name among the collected ones came up before it. -/
theorem exists_first {before after : List String}
    (h : (collect pairs).map Prod.fst = before ++ k :: after) :
    ∃ init rest, pairs.map Prod.fst = init ++ k :: rest ∧ k ∉ init ∧ before ⊆ init := by
  induction pairs using List.reverseRecOn generalizing after with
  | nil => simp at h
  | append_singleton pairs o ih =>
    obtain ⟨l, y⟩ := o
    rw [collect_concat, map_fst_put] at h
    rw [List.map_append, List.map_singleton]
    have hlater {after : List String} (h : (collect pairs).map Prod.fst = before ++ k :: after) :
        ∃ init rest, pairs.map Prod.fst ++ [l] = init ++ k :: rest ∧ k ∉ init ∧ before ⊆ init := by
      obtain ⟨init, rest, hsplit, hnot, hsub⟩ := ih h
      exact ⟨init, rest ++ [l], by simp [hsplit], hnot, hsub⟩
    split at h
    · exact hlater h
    next hl =>
      obtain rfl | ⟨after, last, rfl⟩ := after.eq_nil_or_concat'
      · obtain ⟨hbefore, hlast⟩ := List.append_inj' h rfl
        obtain rfl : l = k := List.singleton_inj.mp hlast
        rw [mem_keys_collect] at hl
        exact ⟨pairs.map Prod.fst, [], rfl, hl, fun m hm => mem_keys_collect.mp (hbefore ▸ hm)⟩
      · rw [← List.cons_append, ← List.append_assoc] at h
        exact hlater (List.append_inj' h rfl).1

theorem lookup_collect : (collect pairs).lookup k = pairs.reverse.lookup k := by
  induction pairs using List.reverseRecOn with
  | nil => rfl
  | append_singleton pairs o ih =>
    obtain ⟨l, y⟩ := o
    rw [collect_concat, lookup_put, List.reverse_concat, List.lookup_cons, ih]
    by_cases h : k = l
    · simp [h]
    · rw [if_neg h, beq_eq_false_iff_ne.mpr h]

/-- A name is collected with its last thing. -/
theorem eq_of_mem_collect {init rest : List (String × β)} (h : (k, x) ∈ collect pairs)
    (hpairs : pairs = init ++ (k, y) :: rest) (hrest : k ∉ rest.map Prod.fst) : x = y := by
  have hx : (collect pairs).lookup k = some x := by
    obtain ⟨before, after, hsplit⟩ := List.append_of_mem h
    have hnodup : ((collect pairs).map Prod.fst).Nodup := nodup_keys_collect
    rw [hsplit, List.map_append, List.map_cons] at hnodup
    refine List.lookup_eq_some_iff.mpr ⟨before, after, hsplit, fun o ho => bne_iff_ne.mpr ?_⟩
    exact ((List.nodup_append.mp hnodup).2.2 o.1 (List.mem_map_of_mem ho) k (by simp)).symm
  have hy : pairs.reverse.lookup k = some y := by
    have hsplit : pairs.reverse = rest.reverse ++ (k, y) :: init.reverse := by simp [hpairs]
    refine List.lookup_eq_some_iff.mpr ⟨rest.reverse, init.reverse, hsplit, fun o ho => ?_⟩
    rw [bne_iff_ne]
    rintro rfl
    exact hrest (List.mem_map_of_mem (List.mem_reverse.mp ho))
  rw [lookup_collect, hy] at hx
  exact (Option.some.inj hx).symm

theorem mem_collect {init rest : List (String × β)} (hpairs : pairs = init ++ (k, y) :: rest)
    (hrest : k ∉ rest.map Prod.fst) : (k, y) ∈ collect pairs := by
  have hmem : k ∈ (collect pairs).map Prod.fst := mem_keys_collect.mpr (by simp [hpairs])
  obtain ⟨⟨l, x⟩, hx, rfl⟩ := List.mem_map.mp hmem
  exact eq_of_mem_collect hx hpairs hrest ▸ hx

theorem mem_of_mem_put {e : String × β} (h : e ∈ put k x xs) : e = (k, x) ∨ e ∈ xs := by
  induction xs with
  | nil => simpa [put] using h
  | cons f xs ih =>
    obtain ⟨l, y⟩ := f
    rw [put] at h
    split at h <;> simp_all only [List.mem_cons]
    all_goals tauto

theorem mem_of_mem_collect {e : String × β} (h : e ∈ collect pairs) : e ∈ pairs := by
  induction pairs using List.reverseRecOn with
  | nil => simp at h
  | append_singleton pairs o ih =>
    rw [collect_concat] at h
    rcases mem_of_mem_put h with rfl | h
    · simp
    · exact List.mem_append_left _ (ih h)

theorem map_put {γ : Type} (f : β → γ) :
    (put k x xs).map (fun o => (o.1, f o.2)) = put k (f x) (xs.map fun o => (o.1, f o.2)) := by
  induction xs with
  | nil => rfl
  | cons e xs ih =>
    obtain ⟨l, y⟩ := e
    by_cases hl : l = k <;> simp [put, hl, ih]

theorem map_collect {γ : Type} (f : β → γ) :
    (collect pairs).map (fun o => (o.1, f o.2)) = collect (pairs.map fun o => (o.1, f o.2)) := by
  induction pairs using List.reverseRecOn with
  | nil => rfl
  | append_singleton pairs o ih =>
    rw [collect_concat, map_put, ih, List.map_append, List.map_singleton, collect_concat]

end Named

/-! ### Values up to the order of keys -/

namespace Value

/-- What is seen of a value from outside: a table shows only that it is one. -/
def face : Value → Value
  | table _ => table []
  | v => v

/-- Whether every path finds a section in both values, the same in both, or nothing in both. -/
def Alike (v w : Value) : Prop :=
  ∀ keys, (v.reach? keys).map face = (w.reach? keys).map face

end Value

namespace Settings

variable {s t : Settings} {k l : String} {keys : List Atom} {v : Value}
  {options before after : List (String × Value)}

/-- The keys on the way that a dotted key spells. -/
def path (key : String) : List Atom :=
  (pathNames key).map .text

/-- Whether one of two ways leads along the other. -/
def Touches (key : String) (keys : List Atom) : Prop :=
  path key <+: keys ∨ keys <+: path key

/-- Whether the names of one key start with all names of the other. -/
def Conflict (k l : String) : Prop :=
  Touches k (path l)

theorem get?_eq_reach? : s.get? k = (Value.table s.entries).reach? (path k) :=
  get?_eq

/-! ### One key -/

theorem reach?_set_append {more : List Atom} :
    (Value.table (s.set k v).entries).reach? (path k ++ more) = v.reach? more :=
  Entries.reach?_setAt_append pathNames_ne_nil

theorem exists_reach?_set (h : keys <+: path k) (hne : keys ≠ path k) :
    ∃ inner, (Value.table (s.set k v).entries).reach? keys = some (.table inner) := by
  obtain ⟨more, hmore⟩ := h
  obtain ⟨init, rest, hnames, rfl, rfl⟩ := List.map_eq_append_iff.mp hmore.symm
  have hrest : rest ≠ [] := by
    rintro rfl
    simp [path, hnames] at hne
  rw [set, hnames]
  exact Entries.exists_reach?_setAt hrest

theorem reach?_set_of_not_touches (h : ¬ Touches k keys) :
    (Value.table (s.set k v).entries).reach? keys = (Value.table s.entries).reach? keys :=
  Entries.reach?_setAt_of_apart (fun hlong => h (.inl hlong)) fun hshort => h (.inr hshort)

/-- What is seen where a key touches a path does not depend on what was there. -/
theorem face_set_congr (h : Touches k keys) :
    ((Value.table (s.set k v).entries).reach? keys).map Value.face =
      ((Value.table (t.set k v).entries).reach? keys).map Value.face := by
  by_cases hlong : path k <+: keys
  · obtain ⟨more, rfl⟩ := hlong
    rw [reach?_set_append, reach?_set_append]
  · have hshort := h.resolve_left hlong
    have hne : keys ≠ path k := by
      rintro rfl
      exact hlong (List.prefix_refl _)
    obtain ⟨inner, hs⟩ := exists_reach?_set (s := s) (v := v) hshort hne
    obtain ⟨inner', ht⟩ := exists_reach?_set (s := t) (v := v) hshort hne
    rw [hs, ht]
    rfl

/-! ### Keys one after the other -/

theorem apply_append : s.apply (before ++ after) = (s.apply before).apply after :=
  List.foldl_append

theorem apply_cons : s.apply ((k, v) :: after) = (s.set k v).apply after := rfl

theorem reach?_apply_of_not_touches (h : ∀ o ∈ options, ¬ Touches o.1 keys) :
    (Value.table (s.apply options).entries).reach? keys = (Value.table s.entries).reach? keys := by
  induction options generalizing s with
  | nil => rfl
  | cons o options ih =>
    obtain ⟨ho, hoptions⟩ := List.forall_mem_cons.mp h
    rw [apply_cons, ih hoptions, reach?_set_of_not_touches ho]

/-- What stands at a path is settled by the last key that touches it. -/
theorem reach?_apply_of_last (hafter : ∀ o ∈ after, ¬ Touches o.1 keys) :
    (Value.table (s.apply (before ++ (k, v) :: after)).entries).reach? keys =
      (Value.table ((s.apply before).set k v).entries).reach? keys := by
  rw [apply_append, apply_cons, reach?_apply_of_not_touches hafter]

/-! ### Options collected by their keys -/

/-- Whether all places of `l` lie between two places of `k`. -/
def Encloses (keys : List String) (k l : String) : Prop :=
  ∃ first between last, keys = first ++ k :: between ++ k :: last ∧
    l ∈ between ∧ l ∉ first ∧ l ∉ last

theorem Encloses.mem {names : List String} (h : Encloses names k l) : l ∈ names := by
  obtain ⟨first, between, last, rfl, hl, -⟩ := h
  simp [hl]

theorem Encloses.head_ne {m : String} {names : List String} (h : Encloses (m :: names) k l)
    (hne : k ≠ l) : m ≠ l := by
  obtain ⟨first, between, last, hsplit, -, hfirst, -⟩ := h
  rintro rfl
  obtain _ | ⟨other, first⟩ := first
  · exact hne (List.cons.inj hsplit).1.symm
  · exact hfirst ((List.cons.inj hsplit).1 ▸ List.mem_cons_self)

theorem Encloses.last_ne {m : String} {names : List String} (h : Encloses (names ++ [m]) k l)
    (hne : k ≠ l) : m ≠ l := by
  obtain ⟨first, between, last, hsplit, -, -, hlast⟩ := h
  rintro rfl
  obtain rfl | ⟨last, other, rfl⟩ := last.eq_nil_or_concat'
  · exact hne (List.singleton_inj.mp (List.append_inj' hsplit rfl).2).symm
  · rw [← List.cons_append, ← List.append_assoc] at hsplit
    have hm : m = other := List.singleton_inj.mp (List.append_inj' hsplit rfl).2
    simp [hm] at hlast

theorem Conflict.symm (h : Conflict k l) : Conflict l k :=
  Or.symm h

theorem conflict_or_inside (hk : Touches k keys) (hl : Touches l keys) :
    Conflict k l ∨ (keys <+: path k ∧ keys ≠ path k) ∧ keys <+: path l ∧ keys ≠ path l := by
  rcases hk with hk | hk <;> rcases hl with hl | hl
  · exact .inl (List.prefix_or_prefix_of_prefix hk hl)
  · exact .inl (.inl (hk.trans hl))
  · exact .inl (.inr (hl.trans hk))
  · by_cases hkeys : keys = path k ∨ keys = path l
    · rcases hkeys with rfl | rfl
      · exact .inl (.inl hl)
      · exact .inl (.inr hk)
    · rw [not_or] at hkeys
      exact .inr ⟨⟨hk, hkeys.1⟩, hl, hkeys.2⟩

/-- The last key that touches a path is the same among the options and among the collected ones, or
the one among the options encloses the other. -/
theorem last_eq_or_encloses {w : Value} {before' after' : List (String × Value)}
    (hoptions : options = before ++ (k, v) :: after) (hk : Touches k keys)
    (hafter : ∀ o ∈ after, ¬ Touches o.1 keys)
    (hcollect : Named.collect options = before' ++ (l, w) :: after') (hl : Touches l keys)
    (hafter' : ∀ o ∈ after', ¬ Touches o.1 keys) :
    k = l ∧ v = w ∨ k ≠ l ∧ Encloses (options.map Prod.fst) k l := by
  have hnot {m : String} (hm : Touches m keys) {rest : List (String × Value)}
      (hrest : ∀ o ∈ rest, ¬ Touches o.1 keys) : m ∉ rest.map Prod.fst := by
    rintro hmem
    obtain ⟨o, ho, rfl⟩ := List.mem_map.mp hmem
    exact hrest o ho hm
  by_cases hkl : k = l
  · subst hkl
    have hmem : (k, w) ∈ Named.collect options := by simp [hcollect]
    exact .inl ⟨rfl, (Named.eq_of_mem_collect hmem hoptions (hnot hk hafter)).symm⟩
  refine .inr ⟨hkl, ?_⟩
  have hkeys : options.map Prod.fst = before.map Prod.fst ++ k :: after.map Prod.fst := by
    rw [hoptions, List.map_append, List.map_cons]
  have hcollected : (Named.collect options).map Prod.fst =
      before'.map Prod.fst ++ l :: after'.map Prod.fst := by
    rw [hcollect, List.map_append, List.map_cons]
  have hbefore : k ∈ before'.map Prod.fst := by
    have hmem : k ∈ (Named.collect options).map Prod.fst :=
      Named.mem_keys_collect.mpr (by simp [hkeys])
    rw [hcollected, List.mem_append, List.mem_cons] at hmem
    exact hmem.resolve_right (not_or.mpr ⟨hkl, hnot hk hafter'⟩)
  obtain ⟨init, rest, hsplit, hinit, hsub⟩ := Named.exists_first hcollected
  obtain ⟨first, middle, rfl⟩ := List.append_of_mem (hsub hbefore)
  rw [hkeys, List.append_eq_append_iff] at hsplit
  have hlast : l ∉ after.map Prod.fst := hnot hl hafter
  rcases hsplit with ⟨between, -, hrest⟩ | ⟨between, hlong, hrest⟩
  · -- the last place of `k` would come before the first one of `l`
    obtain _ | ⟨m, between⟩ := between
    · exact absurd (List.cons.inj hrest).1 hkl
    · rw [List.cons_append, List.cons.injEq] at hrest
      simp [hrest.2] at hlast
  · obtain _ | ⟨m, between⟩ := between
    · exact absurd (List.cons.inj hrest).1.symm hkl
    · obtain ⟨rfl, -⟩ := List.cons.inj hrest
      refine ⟨first, middle ++ l :: between, after.map Prod.fst, ?_, by simp, ?_, hlast⟩
      · rw [hkeys, hlong]
        simp
      · exact fun hmem => hinit (List.mem_append_left _ hmem)

theorem exists_last {α : Type} {p : α → Prop} {xs : List α} (h : ∃ x ∈ xs, p x) :
    ∃ before x after, xs = before ++ x :: after ∧ p x ∧ ∀ y ∈ after, ¬ p y := by
  induction xs using List.reverseRecOn with
  | nil => simp at h
  | append_singleton xs a ih =>
    by_cases ha : p a
    · exact ⟨xs, a, [], rfl, ha, by simp⟩
    · have hxs : ∃ x ∈ xs, p x := by simpa [or_and_right, exists_or, ha] using h
      obtain ⟨before, x, after, rfl, hx, hafter⟩ := ih hxs
      refine ⟨before, x, after ++ [a], by simp, hx, fun y hy => ?_⟩
      rcases List.mem_append.mp hy with hy | hy
      · exact hafter y hy
      · rwa [List.mem_singleton.mp hy]

theorem exists_last_collect (h : ∃ o ∈ options, Touches o.1 keys) :
    ∃ before o after, Named.collect options = before ++ o :: after ∧ Touches o.1 keys ∧
      ∀ o' ∈ after, ¬ Touches o'.1 keys := by
  obtain ⟨o, ho, hkeys⟩ := h
  obtain ⟨o', ho', heq⟩ := List.mem_map.mp (Named.mem_keys_collect.mpr (List.mem_map_of_mem ho))
  exact exists_last ⟨o', ho', heq ▸ hkeys⟩

theorem alike_apply_collect
    (hopen : ∀ k l, k ≠ l → Conflict k l → ¬ Encloses (options.map Prod.fst) k l) :
    Value.Alike (.table (s.apply (Named.collect options)).entries)
      (.table (s.apply options).entries) := by
  intro keys
  by_cases h : ∃ o ∈ options, Touches o.1 keys
  · obtain ⟨before', ⟨l, w⟩, after', hcollect, hl, hafter'⟩ := exists_last_collect h
    obtain ⟨before, ⟨k, v⟩, after, hoptions, hk, hafter⟩ := exists_last h
    have hlast := last_eq_or_encloses hoptions hk hafter hcollect hl hafter'
    rw [hcollect, reach?_apply_of_last hafter', hoptions, reach?_apply_of_last hafter]
    rcases hlast with ⟨rfl, rfl⟩ | ⟨hne, hencloses⟩
    · exact face_set_congr hk
    · rcases conflict_or_inside hk hl with hconflict | ⟨⟨hk, hk'⟩, hl, hl'⟩
      · exact absurd hencloses (hopen k l hne hconflict)
      · obtain ⟨inner, hinner⟩ := exists_reach?_set (s := s.apply before) (v := v) hk hk'
        obtain ⟨inner', hinner'⟩ := exists_reach?_set (s := s.apply before') (v := w) hl hl'
        rw [hinner, hinner']
        rfl
  · have hnot : ∀ o ∈ options, ¬ Touches o.1 keys := fun o ho hkeys => h ⟨o, ho, hkeys⟩
    have hnot' : ∀ o ∈ Named.collect options, ¬ Touches o.1 keys := by
      intro o ho hkeys
      obtain ⟨o', ho', heq⟩ := List.mem_map.mp (Named.mem_keys_collect.mp (List.mem_map_of_mem ho))
      exact hnot o' ho' (heq ▸ hkeys)
    rw [reach?_apply_of_not_touches hnot, reach?_apply_of_not_touches hnot']

/-- A value that no later option conflicts with stands at its key in the end. -/
theorem get?_apply_collect
    (hopen : ∀ k l, k ≠ l → Conflict k l → ¬ Encloses (options.map Prod.fst) k l)
    (hoptions : options = before ++ (k, v) :: after) (hafter : ∀ o ∈ after, ¬ Conflict k o.1) :
    (s.apply (Named.collect options)).get? k = some v := by
  have hk : Touches k (path k) := .inl (List.prefix_refl _)
  have hafter' : ∀ o ∈ after, ¬ Touches o.1 (path k) := fun o ho htouches =>
    hafter o ho (Conflict.symm htouches)
  have hmem : (k, v) ∈ options := by simp [hoptions]
  obtain ⟨before', ⟨l, w⟩, rest, hcollect, hl, hrest⟩ := exists_last_collect ⟨(k, v), hmem, hk⟩
  obtain ⟨rfl, rfl⟩ : k = l ∧ v = w := by
    refine (last_eq_or_encloses hoptions hk hafter' hcollect hl hrest).resolve_right ?_
    rintro ⟨hne, hencloses⟩
    exact hopen k l hne (Conflict.symm hl) hencloses
  rw [get?_eq_reach?, hcollect, reach?_apply_of_last hrest, ← List.append_nil (path k),
    reach?_set_append, Value.reach?_nil]

/-! ### Options as texts -/

section Options

variable {α : Type} {nothing : α} {read : String → Except Yaml.YamlFault α} {parse : String → α}
  {options : List (String × String)}

/-- What the text of an option stands for, when values are read in a given way. -/
def valueOf (nothing : α) (parse : String → α) (text : String) : α :=
  if text.isEmpty then nothing else parse text

theorem optionParts_eq {key text : String} (hkey : '=' ∉ key.toList)
    (hread : text.isEmpty = false → read text = .ok (parse text)) :
    optionParts nothing read (key ++ "=" ++ text) = .ok (key, valueOf nothing parse text) := by
  obtain ⟨first, rest, hpieces⟩ := List.exists_cons_of_ne_nil (Text.splitOn_ne_nil text '=')
  have hsplit : (key ++ "=" ++ text).splitOn "=" = key :: first :: rest :=
    (Text.splitOn_append hkey).trans (congrArg _ hpieces)
  have htext : String.intercalate "=" (first :: rest) = text := by
    rw [← hpieces]
    exact Text.intercalate_splitOn text '='
  rw [optionParts, hsplit]
  dsimp only
  rw [htext, valueOf]
  cases hempty : text.isEmpty with
  | true => rfl
  | false =>
    rw [hread hempty]
    rfl

theorem overridesWith_eq (parse : String → α) (hkeys : ∀ o ∈ options, '=' ∉ o.1.toList)
    (hread : ∀ o ∈ options, o.2.isEmpty = false → read o.2 = .ok (parse o.2)) :
    overridesWith nothing read (options.map fun o => o.1 ++ "=" ++ o.2) =
      .ok (Named.collect (options.map fun o => (o.1, valueOf nothing parse o.2))) := by
  rw [overridesWith, Named.collect]
  generalize [] = collected
  induction options generalizing collected with
  | nil => rfl
  | cons o options ih =>
    obtain ⟨hkey, hkeys⟩ := List.forall_mem_cons.mp hkeys
    obtain ⟨hfirst, hread⟩ := List.forall_mem_cons.mp hread
    rw [List.map_cons, List.foldlM_cons, optionParts_eq hkey hfirst, List.map_cons, List.foldl_cons,
      ← ih hkeys hread]
    rfl

end Options

end Settings

/-! ### Options that are applied -/

namespace Desk

open Settings

variable {d : Desk} {options : List (String × Value × Sharing)}

/-- Set dotted keys one after the other. -/
def setAll (d : Desk) (options : List (String × Value × Sharing)) : Desk :=
  options.foldl (fun d o => d.set o.1 o.2.1 o.2.2) d

theorem apply_eq (h : ∀ o ∈ options, o.2.1.isEndless = false) :
    d.apply options = (d.setAll options, true) := by
  induction options generalizing d with
  | nil => rfl
  | cons o options ih =>
    obtain ⟨ho, hoptions⟩ := List.forall_mem_cons.mp h
    have hends : ¬ o.2.1.isEndless := by simpa using ho
    rw [apply, if_neg hends, ih hoptions]
    rfl

/-- Keys are set in settings that are in use as they are in a tree. -/
theorem setAll_settings (hd : d.live.Apart) : (d.setAll options).live.Apart ∧
    (d.setAll options).settings = d.settings.apply (options.map fun o => (o.1, o.2.1)) := by
  induction options generalizing d with
  | nil => exact ⟨hd, rfl⟩
  | cons o options ih =>
    obtain ⟨hapart, hsettings⟩ := hd.set (k := o.1) (v := o.2.1)
    obtain ⟨hrest, hrest'⟩ := @ih (d.set o.1 o.2.1 o.2.2) hapart
    refine ⟨hrest, hrest'.trans ?_⟩
    rw [List.map_cons, apply_cons]
    exact congrArg (Settings.apply · _) hsettings

/-- The keys of options with what their texts stand for. -/
def optionPairs (parse : String → Value × Sharing) (options : List (String × String)) :
    List (String × Value × Sharing) :=
  options.map fun o => (o.1, valueOf (.null, []) parse o.2)

/-- Options leave every key once, at its first place and with its last value. Applied to settings
without a section at two places, they come to the same as their keys set one by one, up to the order
of keys, and a later option wins over the earlier ones that it conflicts with; provided that no key
has all its options between two options of a key that it conflicts with. -/
theorem apply_overridesWith (d : Desk) (hd : d.live.Apart)
    (read : String → Except Yaml.YamlFault (Value × Sharing)) (parse : String → Value × Sharing)
    {options : List (String × String)} (hkeys : ∀ o ∈ options, '=' ∉ o.1.toList)
    (hread : ∀ o ∈ options, o.2.isEmpty = false → read o.2 = .ok (parse o.2))
    (hends : ∀ o ∈ optionPairs parse options, o.2.1.isEndless = false) :
    ∃ overrides d',
      overridesWith (.null, []) read (options.map fun o => o.1 ++ "=" ++ o.2) = .ok overrides ∧
      overrides.map Prod.fst = (options.map Prod.fst).eraseDups ∧
      (∀ before key v after, optionPairs parse options = before ++ (key, v) :: after →
        key ∉ after.map Prod.fst → (key, v) ∈ overrides) ∧
      d.apply overrides = (d', true) ∧
      ((∀ k l, k ≠ l → Conflict k l → ¬ Encloses (options.map Prod.fst) k l) →
        Value.Alike (.table d'.settings.entries)
          (.table (d.setAll (optionPairs parse options)).settings.entries) ∧
        ∀ before key v after, optionPairs parse options = before ++ (key, v) :: after →
          (∀ o ∈ after, ¬ Conflict key o.1) → d'.live.value? key = some v.1) := by
  have hnames : (optionPairs parse options).map Prod.fst = options.map Prod.fst := by
    simp [optionPairs]
  have hfinite : ∀ o ∈ Named.collect (optionPairs parse options), o.2.1.isEndless = false :=
    fun o ho => hends o (Named.mem_of_mem_collect ho)
  obtain ⟨hapart, hset⟩ : (d.setAll (Named.collect (optionPairs parse options))).live.Apart ∧ _ :=
    setAll_settings hd
  rw [Named.map_collect] at hset
  refine ⟨Named.collect (optionPairs parse options), d.setAll (Named.collect _),
    overridesWith_eq parse hkeys hread, hnames ▸ Named.map_fst_collect,
    fun _ _ _ _ => Named.mem_collect, apply_eq hfinite, fun hopen => ?_⟩
  have hopen' : ∀ k l, k ≠ l → Conflict k l → ¬ Encloses
      (((optionPairs parse options).map fun o => (o.1, o.2.1)).map Prod.fst) k l := by
    rwa [List.map_map, show (Prod.fst ∘ fun o : String × Value × Sharing => (o.1, o.2.1)) =
      Prod.fst from rfl, hnames]
  refine ⟨?_, fun before key v after h hafter => ?_⟩
  · rw [hset, (setAll_settings hd).2]
    exact alike_apply_collect hopen'
  · rw [hapart.value?_eq]
    refine (congrArg (Settings.get? · key) hset).trans (get?_apply_collect hopen'
      (by rw [h, List.map_append, List.map_cons]) fun o ho => ?_)
    obtain ⟨o', ho', rfl⟩ := List.mem_map.mp ho
    exact hafter o' ho'

/-- Two keys that conflict come up in turn. Each of them has an option after those of the other, so
their order is kept. -/
theorem apply_overridesWith_interleaved :
    (Desk.of {}).live.Apart ∧
    (∀ o ∈ [("a", "1"), ("a.b", "2"), ("a", "3"), ("a.b", "4")], '=' ∉ o.1.toList) ∧
    (∀ o ∈ optionPairs (fun text => (.text text, []))
      [("a", "1"), ("a.b", "2"), ("a", "3"), ("a.b", "4")], o.2.1.isEndless = false) ∧
    (∀ k l, k ≠ l → Conflict k l → ¬ Encloses ["a", "a.b", "a", "a.b"] k l) ∧
    ∃ overrides d', overridesWith (.null, []) (fun text => .ok (.text text, []))
        ["a" ++ "=" ++ "1", "a.b" ++ "=" ++ "2", "a" ++ "=" ++ "3", "a.b" ++ "=" ++ "4"] =
          .ok overrides ∧
      overrides.map Prod.fst = ["a", "a.b"] ∧ ("a", .text "3", []) ∈ overrides ∧
      (Desk.of {}).apply overrides = (d', true) ∧ d'.live.value? "a.b" = some (.text "4") := by
  have hapart : (Desk.of {}).live.Apart := (LiveSettings.apart_of {}).1
  have hkeys : ∀ o ∈ [("a", "1"), ("a.b", "2"), ("a", "3"), ("a.b", "4")], '=' ∉ o.1.toList := by
    decide
  have hends : ∀ o ∈ optionPairs (fun text => (.text text, []))
      [("a", "1"), ("a.b", "2"), ("a", "3"), ("a.b", "4")], o.2.1.isEndless = false := by
    decide
  have hopen : ∀ k l, k ≠ l → Conflict k l → ¬ Encloses ["a", "a.b", "a", "a.b"] k l := by
    intro k l hne _ hencloses
    have hmem : l = "a" ∨ l = "a.b" := by
      have hmem := hencloses.mem
      simp only [List.mem_cons, List.not_mem_nil, or_false] at hmem
      tauto
    rcases hmem with rfl | rfl
    · exact hencloses.head_ne hne rfl
    · have hlast : Encloses (["a", "a.b", "a"] ++ ["a.b"]) k "a.b" := hencloses
      exact hlast.last_ne hne rfl
  obtain ⟨overrides, d', hread, hfirst, hlast, hset, hordered⟩ := apply_overridesWith (Desk.of {})
    hapart (fun text => .ok (.text text, [])) (fun text => (.text text, [])) hkeys
    (fun _ _ _ => rfl) hends
  refine ⟨hapart, hkeys, hends, hopen, overrides, d', hread, hfirst.trans (by decide),
    hlast [("a", .text "1", []), ("a.b", .text "2", [])] "a" (.text "3", [])
      [("a.b", .text "4", [])] (by rfl) (by decide), hset, ?_⟩
  exact (hordered hopen).2 [("a", .text "1", []), ("a.b", .text "2", []), ("a", .text "3", [])]
    "a.b" (.text "4", []) [] (by rfl) (by simp)

/-- Settings with one section under two keys. -/
def twofold : Desk where
  live := (LiveSettings.of ⟨[(.text "a", .table [(.text "p", .text "0")])]⟩).set "b" (.part 0)

theorem enclosed_loses :
    ((Desk.of {}).setAll [("a", .text "3", []), ("a.b", .text "2", [])]).live.value? "a" =
        some (.table [(.text "b", .text "2")]) ∧
      ((Desk.of {}).setAll [("a", .text "1", []), ("a.b", .text "2", []),
        ("a", .text "3", [])]).live.value? "a" = some (.text "3") :=
  ⟨by cbv, by cbv⟩

theorem twofold_loses :
    (twofold.setAll [("a.p", .text "3", []), ("b.p", .text "2", [])]).live.value? "b.p" =
        some (.text "2") ∧
      (twofold.setAll [("a.p", .text "1", []), ("b.p", .text "2", []),
        ("a.p", .text "3", [])]).live.value? "b.p" = some (.text "3") :=
  ⟨by cbv, by cbv⟩

/-- In general the order of the options is not kept: the last option may lose, if another one comes
after the first place of its key and conflicts with it, or sets the same section elsewhere. -/
theorem apply_overridesWith_enclosed :
    (∃ overrides d', overridesWith (.null, []) (fun text => .ok (.text text, []))
        ["a=1", "a.b=2", "a=3"] = .ok overrides ∧
      (Desk.of {}).apply overrides = (d', true) ∧
      d'.live.value? "a" = some (.table [(.text "b", .text "2")]) ∧
      ((Desk.of {}).setAll [("a", .text "1", []), ("a.b", .text "2", []),
        ("a", .text "3", [])]).live.value? "a" = some (.text "3")) ∧
    ∃ overrides d', overridesWith (.null, []) (fun text => .ok (.text text, []))
        ["a.p=1", "b.p=2", "a.p=3"] = .ok overrides ∧
      twofold.apply overrides = (d', true) ∧ d'.live.value? "b.p" = some (.text "2") ∧
      (twofold.setAll [("a.p", .text "1", []), ("b.p", .text "2", []),
        ("a.p", .text "3", [])]).live.value? "b.p" = some (.text "3") := by
  have hkeys : ∀ o ∈ [("a", "1"), ("a.b", "2"), ("a", "3")], '=' ∉ o.1.toList := by decide
  have hkeys' : ∀ o ∈ [("a.p", "1"), ("b.p", "2"), ("a.p", "3")], '=' ∉ o.1.toList := by decide
  refine ⟨⟨[("a", .text "3", []), ("a.b", .text "2", [])], _, ?_, apply_eq (by decide),
    enclosed_loses⟩, [("a.p", .text "3", []), ("b.p", .text "2", [])], _, ?_, apply_eq (by decide),
    twofold_loses⟩
  · exact overridesWith_eq (fun text => (Value.text text, [])) hkeys fun _ _ _ => rfl
  · exact overridesWith_eq (fun text => (Value.text text, [])) hkeys' fun _ _ _ => rfl

end Desk

end OptimalAssignment
