import Mathlib
import OptimalAssignment.Proofs.Settings.Agreement

/-!
Settings merged with settings: what a dotted key finds afterwards, and the algebra of merging.
-/
namespace OptimalAssignment.Settings

variable {kind : Atom → Bool} {a b c : Settings} {names init rest : List String} {v : Value}

abbrev IsTree (kind : Atom → Bool) (s : Settings) : Prop :=
  s.entries.IsTree kind

/-- Whether no path is a section in some settings and something else in others. -/
abbrev Agrees (kind : Atom → Bool) (s t : Settings) : Prop :=
  Value.Agrees kind (.table s.entries) (.table t.entries)

theorem table_merge : Value.table (a.merge b).entries =
    (Value.table a.entries).overlay (.table b.entries) :=
  Value.overlay_table.symm

/-! ### What dotted keys find -/

section Texts

variable (ha : a.IsTree Atom.isText) (hb : b.IsTree Atom.isText)

theorem isText_of_mem_map {k : Atom} (hk : k ∈ names.map Atom.text) : k.isText := by
  obtain ⟨name, -, rfl⟩ := List.mem_map.mp hk
  rfl

include ha hb

theorem get?_merge_of_some (h : IsPath names) (hv : b.get? (dotted names) = some v) :
    (a.merge b).get? (dotted names) = Value.overlay? (a.get? (dotted names)) (some v) := by
  rw [get?_dotted h] at hv ⊢
  rw [get?_dotted h, table_merge]
  exact Value.reach?_overlay_of_some Atom.comparable_isText ha hb (fun _ => isText_of_mem_map) hv

theorem get?_merge_of_blocked (h : IsPath (init ++ rest)) (hinit : init ≠ []) (hrest : rest ≠ [])
    (hv : b.get? (dotted init) = some v) (hsection : v.isSection = false) :
    (a.merge b).get? (dotted (init ++ rest)) = none := by
  have hrest' : rest.map Atom.text ≠ [] := by simpa using hrest
  rw [get?_dotted (h.left hinit)] at hv
  rw [get?_dotted h, table_merge, List.map_append]
  exact Value.reach?_overlay_of_blocked Atom.comparable_isText ha hb (fun _ => isText_of_mem_map)
    hrest' hv hsection

theorem get?_merge_of_none (h : IsPath names) (hnone : b.get? (dotted names) = none)
    (hopen : ∀ init rest v, names = init ++ rest → init ≠ [] → rest ≠ [] →
      b.get? (dotted init) = some v → v.isSection) :
    (a.merge b).get? (dotted names) = a.get? (dotted names) := by
  rw [get?_dotted h] at hnone
  rw [get?_dotted h, get?_dotted h, table_merge]
  refine Value.reach?_overlay_of_none Atom.comparable_isText ha hb (fun _ => isText_of_mem_map)
    hnone fun init' rest' hnames x hx => ?_
  obtain ⟨init, rest, rfl, rfl, rfl⟩ := List.map_eq_append_iff.mp hnames
  by_cases hinit : init = []
  · subst hinit
    obtain rfl : Value.table b.entries = x := by simpa using hx
    rfl
  by_cases hrest : rest = []
  · subst hrest
    simp [hx] at hnone
  · exact hopen init rest x rfl hinit hrest ((get?_dotted (h.left hinit)).trans hx)

end Texts

/-- Whether a path finds in settings what it should if `b` was laid over `a`. -/
structure Layered (a b m : Settings) (names : List String) : Prop where
  /-- What is no section above is found as it is. -/
  value {v : Value} (hb : b.get? (dotted names) = some v) (hv : v.isSection = false) :
    m.get? (dotted names) = some v
  /-- A section above is merged with a section below. -/
  merged {s t : Entries} (hb : b.get? (dotted names) = some (.table t))
    (ha : a.get? (dotted names) = some (.table s)) :
    m.get? (dotted names) = some (.table ((⟨s⟩ : Settings).merge ⟨t⟩).entries)
  /-- A section above is found as it is if there is none below. -/
  fresh {t : Entries} (hb : b.get? (dotted names) = some (.table t))
    (ha : ∀ s, a.get? (dotted names) ≠ some (.table s)) :
    m.get? (dotted names) = some (.table t)
  /-- Nothing is found behind what is no section above. -/
  hidden {init rest : List String} {v : Value} (hnames : names = init ++ rest) (hinit : init ≠ [])
    (hrest : rest ≠ []) (hb : b.get? (dotted init) = some v) (hv : v.isSection = false) :
    m.get? (dotted names) = none
  /-- Everything else is found as it is below. -/
  kept (hb : b.get? (dotted names) = none)
    (hopen : ∀ init rest v, names = init ++ rest → init ≠ [] → rest ≠ [] →
      b.get? (dotted init) = some v → v.isSection) :
    m.get? (dotted names) = a.get? (dotted names)

theorem layered_of_isTree (ha : a.IsTree Atom.isText) (hb : b.IsTree Atom.isText)
    (h : IsPath names) : Layered a b (a.merge b) names where
  value hv hsection := by
    rw [get?_merge_of_some ha hb h hv]
    cases a.get? (dotted names) with
    | none => rfl
    | some old => rw [Value.overlay?_some, Value.overlay_eq_self (.inr hsection)]
  merged ht hs := by
    rw [get?_merge_of_some ha hb h ht, hs, Value.overlay?_some, Value.overlay_table]
    rfl
  fresh ht hs := by
    rw [get?_merge_of_some ha hb h ht]
    cases hold : a.get? (dotted names) with
    | none => rfl
    | some old =>
      have hsection : old.isSection = false := Value.isSection_eq_false fun s hs' =>
        hs s (hold.trans (congrArg some hs'))
      rw [Value.overlay?_some, Value.overlay_eq_self (.inl hsection)]
  hidden hnames hinit hrest hv hsection := by
    subst hnames
    exact get?_merge_of_blocked ha hb h hinit hrest hv hsection
  kept hnone hopen := get?_merge_of_none ha hb h hnone hopen

/-- A plain table of overrides is taken for the settings that it spells. -/
theorem ofValue_table : ofValue (.table b.entries) = .ok b := by
  rw [ofValue]
  split
  next h =>
    have hempty : b.entries = [] := by simpa [Value.isTruthy] using h
    obtain ⟨entries⟩ := b
    subst hempty
    rfl
  · rfl

/-- Whatever path is followed, merging settings with others, or with a plain table of overrides, has
it find what the upper settings say, sections merged with sections; and what the lower ones have,
where the upper ones say nothing and have nothing in the way. -/
theorem merge_layered (ha : a.IsTree Atom.isText) (hb : b.IsTree Atom.isText) (h : IsPath names) :
    Layered a b (a.merge b) names ∧
      ∃ m, (ofValue (.table b.entries)).map a.merge = .ok m ∧ Layered a b m names := by
  have hlayered := layered_of_isTree ha hb h
  refine ⟨hlayered, a.merge b, ?_, hlayered⟩
  rw [ofValue_table]
  rfl

theorem merge_layered_solver :
    IsTree Atom.isText
        ⟨[(.text "solver", .table [(.text "check", .truth true)]),
          (.text "log", .table [(.text "level", .text "INFO")])]⟩ ∧
      IsTree Atom.isText
        ⟨[(.text "solver", .table [(.text "limit", .integer 7)]), (.text "log", .text "off")]⟩ ∧
      IsPath ["solver", "check"] ∧ IsPath ["log", "level"] ∧
      ((⟨[(.text "solver", .table [(.text "check", .truth true)]),
          (.text "log", .table [(.text "level", .text "INFO")])]⟩ : Settings).merge
        ⟨[(.text "solver", .table [(.text "limit", .integer 7)]), (.text "log", .text "off")]⟩).get?
          (dotted ["solver", "check"]) = some (.truth true) ∧
      ((⟨[(.text "solver", .table [(.text "check", .truth true)]),
          (.text "log", .table [(.text "level", .text "INFO")])]⟩ : Settings).merge
        ⟨[(.text "solver", .table [(.text "limit", .integer 7)]), (.text "log", .text "off")]⟩).get?
          (dotted ["log", "level"]) = none := by
  have ha : IsTree Atom.isText
      ⟨[(.text "solver", .table [(.text "check", .truth true)]),
        (.text "log", .table [(.text "level", .text "INFO")])]⟩ := by decide
  have hb : IsTree Atom.isText
      ⟨[(.text "solver", .table [(.text "limit", .integer 7)]), (.text "log", .text "off")]⟩ := by
    decide
  have hcheck : IsPath ["solver", "check"] := ⟨by decide, by decide⟩
  have hlevel : IsPath ["log", "level"] := ⟨by decide, by decide⟩
  refine ⟨ha, hb, hcheck, hlevel, ?_, ?_⟩
  · have hopen : ∀ init rest v, ["solver", "check"] = init ++ rest → init ≠ [] → rest ≠ [] →
        (⟨[(.text "solver", .table [(.text "limit", .integer 7)]),
          (.text "log", .text "off")]⟩ : Settings).get? (dotted init) = some v → v.isSection := by
      intro init rest v hnames hinit hrest hv
      obtain _ | ⟨name, _ | ⟨other, more⟩⟩ := init
      · contradiction
      · obtain ⟨rfl, -⟩ := List.cons.inj hnames
        rw [get?_dotted ⟨by decide, by decide⟩] at hv
        obtain rfl : .table [(.text "limit", .integer 7)] = v := Option.some.inj hv
        rfl
      · simp_all
    have hnone : (⟨[(.text "solver", .table [(.text "limit", .integer 7)]),
        (.text "log", .text "off")]⟩ : Settings).get? (dotted ["solver", "check"]) = none := by
      rw [get?_dotted hcheck]
      rfl
    rw [(merge_layered ha hb hcheck).1.kept hnone hopen, get?_dotted hcheck]
    rfl
  · have hoff : (⟨[(.text "solver", .table [(.text "limit", .integer 7)]),
        (.text "log", .text "off")]⟩ : Settings).get? (dotted ["log"]) = some (.text "off") := by
      rw [get?_dotted ⟨by decide, by decide⟩]
      rfl
    have hnames : ["log", "level"] = ["log"] ++ ["level"] := rfl
    exact (merge_layered ha hb hlevel).1.hidden hnames (by decide) (by decide) hoff rfl

/-! ### The algebra of merging -/

/-- Merging with nothing changes nothing, merging twice with the same is merging once, and layers
that agree in kind can be merged from below or from above; all this with the same order of keys. -/
theorem merge_algebra (hkind : Atom.Comparable kind) (ha : a.IsTree kind) (hb : b.IsTree kind)
    (hc : c.IsTree kind) :
    a.merge {} = a ∧ ({} : Settings).merge a = a ∧ (a.merge b).merge b = a.merge b ∧
      (a.Agrees kind b → a.Agrees kind c → b.Agrees kind c →
        (a.merge b).merge c = a.merge (b.merge c)) := by
  refine ⟨?_, ?_, ?_, fun hab hac hbc => ?_⟩
  · exact congrArg Settings.mk Entries.overlay_nil
  · exact congrArg Settings.mk (Entries.nil_overlay hkind ha)
  · exact congrArg Settings.mk (Entries.overlay_overlay_self hkind ha hb)
  · exact congrArg Settings.mk (Entries.overlay_assoc hkind ha hb hc hab hac hbc)

theorem merge_algebra_mixed :
    Atom.Comparable Atom.isExact ∧
      IsTree Atom.isExact ⟨[(.integer 1, .table [(.text "p", .null)])]⟩ ∧
      IsTree Atom.isExact ⟨[(.null, .text "q"), (.integer 1, .table [(.text "r", .null)])]⟩ ∧
      IsTree Atom.isExact ⟨[(.truth true, .table [(.text "p", .text "s")])]⟩ ∧
      ((⟨[(.integer 1, .table [(.text "p", .null)])]⟩ : Settings).merge
          ⟨[(.null, .text "q"), (.integer 1, .table [(.text "r", .null)])]⟩).merge
          ⟨[(.truth true, .table [(.text "p", .text "s")])]⟩ =
        (⟨[(.integer 1, .table [(.text "p", .null)])]⟩ : Settings).merge
          ((⟨[(.null, .text "q"), (.integer 1, .table [(.text "r", .null)])]⟩ : Settings).merge
            ⟨[(.truth true, .table [(.text "p", .text "s")])]⟩) := by
  have hkind := Atom.comparable_isExact
  have ha : IsTree Atom.isExact ⟨[(.integer 1, .table [(.text "p", .null)])]⟩ := by decide
  have hb : IsTree Atom.isExact
      ⟨[(.null, .text "q"), (.integer 1, .table [(.text "r", .null)])]⟩ := by decide
  have hc : IsTree Atom.isExact ⟨[(.truth true, .table [(.text "p", .text "s")])]⟩ := by decide
  have hab : Agrees Atom.isExact ⟨[(.integer 1, .table [(.text "p", .null)])]⟩
      ⟨[(.null, .text "q"), (.integer 1, .table [(.text "r", .null)])]⟩ := by
    refine .of_forall hkind ha hb ?_
    simp only [List.forall_mem_cons, List.not_mem_nil, false_implies, implies_true, and_true]
    exact ⟨fun h => absurd h (by decide),
      fun _ => .of_leaves hkind (by decide) (by decide) (by decide) (by decide)⟩
  have hac : Agrees Atom.isExact ⟨[(.integer 1, .table [(.text "p", .null)])]⟩
      ⟨[(.truth true, .table [(.text "p", .text "s")])]⟩ := by
    refine .of_forall hkind ha hc ?_
    simp only [List.forall_mem_cons, List.not_mem_nil, false_implies, implies_true, and_true]
    exact fun _ => .of_leaves hkind (by decide) (by decide) (by decide) (by decide)
  have hbc : Agrees Atom.isExact
      ⟨[(.null, .text "q"), (.integer 1, .table [(.text "r", .null)])]⟩
      ⟨[(.truth true, .table [(.text "p", .text "s")])]⟩ := by
    refine .of_forall hkind hb hc ?_
    simp only [List.forall_mem_cons, List.not_mem_nil, false_implies, implies_true, and_true]
    exact ⟨fun h => absurd h (by decide),
      fun _ => .of_leaves hkind (by decide) (by decide) (by decide) (by decide)⟩
  exact ⟨hkind, ha, hb, hc, (merge_algebra hkind ha hb hc).2.2.2 hab hac hbc⟩

end OptimalAssignment.Settings
