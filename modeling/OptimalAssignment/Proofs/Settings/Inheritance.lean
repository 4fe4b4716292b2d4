import Mathlib
import OptimalAssignment.Settings.Inheritance
import OptimalAssignment.Proofs.Settings.Layers

/-!
Settings files that are laid over the files they name. If files name each other to an end, loading
one of them finds a file missing, or lays all of them one over the other in depth-first order.
-/
namespace OptimalAssignment

open Relation

variable {kind : Atom → Bool} {key : Atom} {v : Value} {es : Entries}

/-! ### Trees -/

namespace Value

theorem isEndless_eq_false (hv : v.isTree kind) : v.isEndless = false := by
  refine Value.isTree.induct (fun v => v.isTree kind → v.isEndless = false)
    (fun es => Value.holdTrees kind es → Value.anyEndless es = false)
    ?table ?loop ?leaf ?nil ?cons v hv
  case table => exact fun es ih hes => ih hes
  case loop => simp [isTree]
  case leaf =>
    intro v htable hloop _
    cases v <;> simp_all [isEndless]
  case nil => simp [anyEndless]
  case cons =>
    intro k v es hv hes htree
    simp only [holdTrees, Bool.and_eq_true] at htree
    rw [anyEndless, hv htree.1.2, hes htree.2, Bool.or_self]

end Value

namespace Entries

theorem find?_drop : find? key (drop key es) = none := by
  rw [find?_eq_none_iff]
  intro e he
  simpa using (List.mem_filter.mp he).2

theorem IsTree.drop (hes : IsTree kind es) : IsTree kind (es.drop key) := by
  induction es with
  | nil => exact hes
  | cons e es ih =>
    obtain ⟨k, v⟩ := e
    obtain ⟨hk, hdistinct, hv, hes⟩ := isTree_cons.mp hes
    rw [Entries.drop, List.filter_cons]
    split
    · exact isTree_cons.mpr ⟨hk, fun e he => hdistinct e (List.mem_of_mem_filter he), hv, ih hes⟩
    · exact ih hes

end Entries

namespace Settings

/-! ### Files and the files they name -/

section Files

variable (root : Node)

/-- What the text at a path spells, if there is one. -/
def spelledAt? (p : Path) : Option Value :=
  match root.find p with
  | .ok (.file (.text s)) => (Yaml.read (Text.ofFile s)).toOption
  | _ => none

/-- The entries that a file spells; none if there are none to be read. -/
def spelled (p : Path) : Entries :=
  match spelledAt? root p with
  | some (.table es) => es
  | _ => []

/-- The entries of a file without the names of the files it is laid over. -/
def layer (p : Path) : Entries :=
  (spelled root p).drop (.text "_base_")

/-- The texts by which a file names the files that it is laid over. -/
def baseNames (p : Path) : List String :=
  match (spelled root p).find? (.text "_base_") with
  | none => []
  | some (.text s) => [s]
  | some v => (v.parts?.getD []).filterMap fun
    | .text s => some s
    | _ => none

/-- The files that a file is laid over, by their paths from its own folder. -/
def basePaths (p : Path) : List Path :=
  (baseNames root p).map fun s => p.parent.join (.ofText s)

def Names (p q : Path) : Prop :=
  q ∈ basePaths root p

abbrev Reaches (p q : Path) : Prop :=
  ReflTransGen (Names root) p q

/-- Whether a path leads to nothing. -/
def IsMissing (p : Path) : Prop :=
  ∃ fault, root.find p = .error fault ∧ fault ≠ .tooLong

/-- Whether a file spells a tree, or what counts as false, and names files by a text or by several
ones, or none at all. -/
structure IsFile (kind : Atom → Bool) (p : Path) : Prop where
  reads : ∃ v, spelledAt? root p = some v ∧ ((∃ es, v = .table es) ∨ v.isTruthy = false)
  tree : (spelled root p).IsTree kind
  bases {v : Value} (hv : (spelled root p).find? (.text "_base_") = some v) :
    (∃ s, v = .text s) ∨ ∃ names : List String, v.parts? = some (names.map .text)

/-- Whether a file and all files behind it are there or missing, and name each other to an end. -/
structure IsHierarchy (kind : Atom → Bool) (p : Path) : Prop where
  found {q : Path} (hq : Reaches root p q) : IsMissing root q ∨ IsFile root kind q
  finite : {q | Reaches root p q}.Finite
  acyclic {q : Path} (hq : Reaches root p q) : ¬ TransGen (Names root) q q

/-- The order in which files are laid one over the other: each of them comes after the files that it
names, which come in the order in which it names them, and as often as they are named. -/
inductive DepthFirst : List Path → List Path → Prop
  | nil : DepthFirst [] []
  | cons {p : Path} {ps under later : List Path} (hunder : DepthFirst (basePaths root p) under)
    (hlater : DepthFirst ps later) : DepthFirst (p :: ps) (under ++ p :: later)

end Files

variable {root : Node} {p q f : Path}
  {ps qs order order' later : List Path} {under : Entries} {limit : ℕ}

theorem readFile_eq_missing_iff :
    readFile root p = .error (.missing q) ↔ q = p ∧ IsMissing root p := by
  unfold readFile IsMissing
  split
  next h => simp [h]
  next fault hne h =>
    have hlong : fault ≠ .tooLong := hne
    simp [h, hlong, eq_comm]
  next h => simp [h]
  next h => simp only [h]; split <;> simp
  next h => simp [h]

theorem readFile_of_spelledAt? (h : spelledAt? root p = some v) : readFile root p = .ok v := by
  unfold spelledAt? at h
  split at h
  next s hs =>
    rw [readFile, hs]
    dsimp only
    cases hv : Yaml.read (Text.ofFile s) with
    | ok w => simp_all [Except.toOption]
    | error fault => simp [hv, Except.toOption] at h
  next => simp at h

theorem IsFile.readFile_bind (h : IsFile root kind p) :
    (readFile root p).bind topEntries = .ok (spelled root p) := by
  obtain ⟨v, hv, htable⟩ := h.reads
  rw [readFile_of_spelledAt? hv, spelled, hv]
  rcases htable with ⟨es, rfl⟩ | hfalse
  · cases es <;> rfl
  · have hnone : topEntries v = .ok [] := by simp [topEntries, hfalse]
    cases v with
    | table es =>
      obtain rfl : es = [] := by simpa [Value.isTruthy] using hfalse
      rfl
    | _ => exact hnone

theorem spelled_eq (h : spelledAt? root p = some (.table es)) : spelled root p = es := by
  rw [spelled, h]

theorem IsFile.of_table (h : spelledAt? root p = some (.table es)) (htree : es.IsTree kind)
    (hbases : ∀ v, es.find? (.text "_base_") = some v →
      (∃ s, v = .text s) ∨ ∃ names : List String, v.parts? = some (names.map .text)) :
    IsFile root kind p where
  reads := ⟨_, h, .inl ⟨es, rfl⟩⟩
  tree := by rwa [spelled_eq h]
  bases := by rwa [spelled_eq h]

theorem IsFile.not_isMissing (h : IsFile root kind p) : ¬ IsMissing root p := by
  intro hmissing
  have hread := h.readFile_bind
  rw [readFile_eq_missing_iff.mpr ⟨rfl, hmissing⟩] at hread
  cases hread

/-- What is gone through to find the names of files are these names as texts. -/
theorem IsFile.basesOf_eq (h : IsFile root kind p) :
    basesOf (spelled root p) = .ok ((baseNames root p).map .text) := by
  have hnames (names : List String) :
      (names.map Value.text).filterMap (fun | .text s => some s | _ => none) = names := by
    simp [List.filterMap_map]
  rw [basesOf, baseNames, baseKey]
  cases hv : (spelled root p).find? (.text "_base_") with
  | none => rfl
  | some v =>
    rcases h.bases hv with ⟨s, rfl⟩ | ⟨names, hparts⟩
    · rfl
    · cases v with
      | atom a =>
        cases a with
        | text s => rfl
        | _ => simp [Value.parts?] at hparts
      | loop => simp [Value.parts?] at hparts
      | _ => simp only [hparts, Option.map_some, Option.getD_some, hnames]

theorem IsHierarchy.of_names (h : IsHierarchy root kind p) (hq : Names root p q) :
    IsHierarchy root kind q where
  found hr := h.found (.head hq hr)
  finite := h.finite.subset fun _ hr => .head hq hr
  acyclic hr := h.acyclic (.head hq hr)

theorem mem_of_reaches {files : Set Path} (hnames : ∀ p ∈ files, ∀ q, Names root p q → q ∈ files)
    (hp : p ∈ files) (hq : Reaches root p q) : q ∈ files := by
  induction hq with
  | refl => exact hp
  | tail _ hnext ih => exact hnames _ ih _ hnext

/-- Files are a hierarchy if they name only each other, and each only files of lower rank. -/
theorem IsHierarchy.of_rank {files : Set Path} {rank : Path → ℕ} (hfinite : files.Finite)
    (hfound : ∀ p ∈ files, IsMissing root p ∨ IsFile root kind p)
    (hnames : ∀ p ∈ files, ∀ q, Names root p q → q ∈ files)
    (hrank : ∀ p ∈ files, ∀ q, Names root p q → rank q < rank p) (hp : p ∈ files) :
    IsHierarchy root kind p := by
  have hlower {p q : Path} (hp : p ∈ files) (hq : TransGen (Names root) p q) : rank q < rank p := by
    induction hq with
    | single hnext => exact hrank p hp _ hnext
    | tail hfirst hnext ih =>
      exact (hrank _ (mem_of_reaches hnames hp hfirst.to_reflTransGen) _ hnext).trans ih
  exact {
    found := fun hq => hfound _ (mem_of_reaches hnames hp hq)
    finite := hfinite.subset fun _ hq => mem_of_reaches hnames hp hq
    acyclic := fun hq hcycle => (hlower (mem_of_reaches hnames hp hq) hcycle).false }

theorem DepthFirst.unique (h : DepthFirst root ps order) (h' : DepthFirst root ps order') :
    order = order' := by
  induction h generalizing order' with
  | nil =>
    cases h'
    rfl
  | cons _ _ hunder hlater =>
    cases h' with
    | cons hunder' hlater' => rw [hunder hunder', hlater hlater']

theorem DepthFirst.single (hp : basePaths root p = ps) (h : DepthFirst root ps order) :
    DepthFirst root [p] (order ++ [p]) := by
  subst hp
  exact .cons h .nil

theorem DepthFirst.append (hps : DepthFirst root ps order) (hqs : DepthFirst root qs later) :
    DepthFirst root (ps ++ qs) (order ++ later) := by
  induction hps with
  | nil => exact hqs
  | cons hunder _ _ ih =>
    rw [List.cons_append, List.append_assoc, List.cons_append]
    exact .cons hunder ih

theorem DepthFirst.mem_iff (h : DepthFirst root ps order) :
    q ∈ order ↔ ∃ p ∈ ps, Reaches root p q := by
  induction h with
  | nil => simp
  | @cons p ps under later _ _ hunder hlater =>
    have hp : Reaches root p q ↔ q = p ∨ ∃ r ∈ basePaths root p, Reaches root r q := by
      rw [eq_comm (a := q)]
      exact ReflTransGen.cases_head_iff
    rw [List.mem_append, List.mem_cons, List.exists_mem_cons_iff, hunder, hlater, hp,
      or_assoc]
    exact or_left_comm

/-! ### The number of files behind a file -/

/-- The number of files behind a file and the file itself, each counted once. -/
noncomputable def fileCount (root : Node) (p : Path) : ℕ :=
  {q | Reaches root p q}.ncard

theorem IsHierarchy.fileCount_lt (h : IsHierarchy root kind p) (hq : Names root p q) :
    fileCount root q < fileCount root p := by
  refine Set.ncard_lt_ncard ⟨fun r hr => .head hq hr, fun hsub => ?_⟩ h.finite
  have hback : Reaches root q p := hsub ReflTransGen.refl
  exact h.acyclic .refl (.head' hq hback)

theorem IsHierarchy.fileCount_pos (h : IsHierarchy root kind p) : 0 < fileCount root p :=
  (Set.ncard_pos h.finite).mpr ⟨p, .refl⟩

/-! ### Loading -/

/-- Files loaded one after the other, each laid over the ones before it. -/
def loadAll (root : Node) (limit : ℕ) (under : Entries) (ps : List Path) :
    Except LoadFault Entries :=
  ps.foldlM (fun under p => (loadWith (readFile root) limit p).map (Entries.overlay under)) under

@[simp] theorem loadAll_nil : loadAll root limit under [] = .ok under := rfl

@[simp] theorem loadAll_cons : loadAll root limit under (p :: ps) =
    ((loadWith (readFile root) limit p).map (Entries.overlay under)).bind fun under =>
      loadAll root limit under ps := rfl

theorem loadWith_of_isMissing (h : IsMissing root p) :
    loadWith (readFile root) (limit + 1) p = .error (.missing p) := by
  rw [loadWith, readFile_eq_missing_iff.mpr ⟨rfl, h⟩]
  rfl

theorem IsFile.loadWith_succ (h : IsFile root kind p) : loadWith (readFile root) (limit + 1) p =
    (loadAll root limit [] (basePaths root p)).bind fun under =>
      if Value.anyEndless (under.overlay (layer root p)) then .error .endless
      else .ok (under.overlay (layer root p)) := by
  have hreads : (readFile root p >>= topEntries) = .ok (spelled root p) := h.readFile_bind
  rw [loadWith, ← bind_assoc, hreads, basePaths, loadAll, List.foldlM_map]
  change (basesOf (spelled root p) >>= _) = _
  rw [h.basesOf_eq]
  change (List.foldlM (m := Except LoadFault) _ [] ((baseNames root p).map Value.text) >>= _) = _
  rw [List.foldlM_map]
  refine congrArg (Except.bind _) (funext fun under => ?_)
  dsimp only
  rw [baseKey, ← layer]
  split <;> rfl

/-- The entries that files were loaded on top of are looked at only to lay the files over them. -/
theorem loadAll_congr {limit' : ℕ}
    (h : ∀ p ∈ ps, loadWith (readFile root) limit p = loadWith (readFile root) limit' p) :
    loadAll root limit under ps = loadAll root limit' under ps := by
  induction ps generalizing under with
  | nil => rfl
  | cons p ps ih =>
    obtain ⟨hp, hps⟩ := List.forall_mem_cons.mp h
    rw [loadAll_cons, loadAll_cons, hp]
    exact congrArg _ (funext fun under => ih hps)

/-- A limit that is not reached plays no part. -/
theorem IsHierarchy.loadWith_congr {limit' : ℕ} (h : IsHierarchy root kind p)
    (hlimit : fileCount root p ≤ limit) (hlimit' : fileCount root p ≤ limit') :
    loadWith (readFile root) limit p = loadWith (readFile root) limit' p := by
  have hpos := h.fileCount_pos
  induction limit generalizing p limit' with
  | zero => omega
  | succ limit ih =>
    obtain _ | limit' := limit'
    · omega
    rcases h.found .refl with hmissing | hfile
    · rw [loadWith_of_isMissing hmissing, loadWith_of_isMissing hmissing]
    · have hunder : loadAll root limit [] (basePaths root p) =
          loadAll root limit' [] (basePaths root p) := by
        refine loadAll_congr fun q hq => ?_
        have hlt := h.fileCount_lt hq
        exact ih (h.of_names hq) (by omega) (by omega) (h.of_names hq).fileCount_pos
      rw [hfile.loadWith_succ, hfile.loadWith_succ, hunder]

/-- What may come of loading files on top of entries: some file behind them is missing, or they are
laid over the entries in depth-first order. -/
inductive Outcome (root : Node) (kind : Atom → Bool) (ps : List Path)
    (under : Entries) : Except LoadFault Entries → Prop
  | missing {p q : Path} (hp : p ∈ ps) (hq : Reaches root p q) (hmissing : IsMissing root q) :
    Outcome root kind ps under (.error (.missing q))
  | found {order : List Path} {es : Entries}
    (hfiles : ∀ p ∈ ps, ∀ q, Reaches root p q → IsFile root kind q)
    (horder : DepthFirst root ps order) (htree : es.IsTree kind)
    (hbase : es.find? (.text "_base_") = none)
    (hstack : ∀ lower, under = Entries.stack lower →
      Entries.Compatible kind (lower ++ order.map (layer root)) →
      es = Entries.stack (lower ++ order.map (layer root))) :
    Outcome root kind ps under (.ok es)

section Comparable

variable (hkind : Atom.Comparable kind) (hbase : kind (.text "_base_"))
include hkind hbase

theorem outcome_loadAll (h : ∀ p ∈ ps, Outcome root kind [p] [] (loadWith (readFile root) limit p))
    (htree : under.IsTree kind) (hunder : under.find? (.text "_base_") = none) :
    Outcome root kind ps under (loadAll root limit under ps) := by
  induction ps generalizing under with
  | nil =>
    refine .found (by simp) .nil htree hunder fun lower hlower _ => ?_
    simpa using hlower
  | cons p ps ih =>
    obtain ⟨hp, hps⟩ := List.forall_mem_cons.mp h
    rw [loadAll_cons]
    generalize loadWith (readFile root) limit p = r at hp
    cases hp with
    | @missing p' q hp' hq hmissing =>
      obtain rfl := List.mem_singleton.mp hp'
      exact .missing List.mem_cons_self hq hmissing
    | @found first es hfiles horder hes hnone hstack =>
      have htree' : (under.overlay es).IsTree kind := htree.overlay hes
      have hnone' : (under.overlay es).find? (.text "_base_") = none := by
        rw [Entries.find?_overlay hkind htree hes hbase, hunder, hnone, Value.overlay?_none_left]
      have hrest := ih hps htree' hnone'
      change Outcome root kind (p :: ps) under (loadAll root limit (under.overlay es) ps)
      generalize loadAll root limit (under.overlay es) ps = r at hrest
      cases hrest with
      | missing hp' hq hmissing => exact .missing (List.mem_cons_of_mem p hp') hq hmissing
      | @found later fs hfiles' horder' hfs hnone hstack' =>
        have hall : ∀ p' ∈ p :: ps, ∀ q, Reaches root p' q → IsFile root kind q :=
          List.forall_mem_cons.mpr ⟨hfiles p List.mem_cons_self, hfiles'⟩
        refine .found hall (horder.append horder') hfs hnone fun lower hlower hcompatible => ?_
        rw [List.map_append, ← List.append_assoc] at hcompatible ⊢
        have hes' : es = Entries.stack (first.map (layer root)) :=
          hstack [] rfl hcompatible.left.right
        refine hstack' _ ?_ hcompatible
        rw [Entries.stack_append hkind hcompatible.left, hlower, hes']

theorem IsFile.outcome (h : IsFile root kind p)
    (hunder : Outcome root kind (basePaths root p) [] (loadAll root limit [] (basePaths root p))) :
    Outcome root kind [p] [] (loadWith (readFile root) (limit + 1) p) := by
  rw [h.loadWith_succ]
  generalize loadAll root limit [] (basePaths root p) = r at hunder
  cases hunder with
  | missing hp hq hmissing => exact .missing List.mem_cons_self (.head hp hq) hmissing
  | @found order es hfiles horder hes hnone hstack =>
    have hlayer : (layer root p).IsTree kind := h.tree.drop
    have htree : (es.overlay (layer root p)).IsTree kind := hes.overlay hlayer
    have hends : Value.anyEndless (es.overlay (layer root p)) = false :=
      Value.isEndless_eq_false (v := .table (es.overlay (layer root p))) htree
    change Outcome root kind [p] [] (if _ then _ else _)
    rw [if_neg (by simp [hends])]
    refine .found ?_ (.single rfl horder) htree ?_ fun lower hlower hcompatible => ?_
    · intro p' hp' q hq
      obtain rfl := List.mem_singleton.mp hp'
      rcases ReflTransGen.cases_head_iff.mp hq with rfl | ⟨q', hq', hrest⟩
      · exact h
      · exact hfiles q' hq' q hrest
    · rw [Entries.find?_overlay hkind hes hlayer hbase, hnone, layer, Entries.find?_drop,
        Value.overlay?_none_left]
    · rw [List.map_append, ← List.append_assoc] at hcompatible ⊢
      rw [List.map_singleton, Entries.stack_concat, hstack lower hlower hcompatible.left]

theorem IsHierarchy.outcome (h : IsHierarchy root kind p) (hlimit : fileCount root p ≤ limit) :
    Outcome root kind [p] [] (loadWith (readFile root) limit p) := by
  induction limit generalizing p with
  | zero => exact absurd h.fileCount_pos (by omega)
  | succ limit ih =>
    rcases h.found .refl with hmissing | hfile
    · rw [loadWith_of_isMissing hmissing]
      exact .missing List.mem_cons_self .refl hmissing
    · refine hfile.outcome hkind hbase (outcome_loadAll hkind hbase (fun q hq => ?_) rfl rfl)
      have hlt := h.fileCount_lt hq
      exact ih (h.of_names hq) (by omega)

/-- Files that name each other to an end are loaded within some limit, and then by every greater
one. Loading fails for a missing file if one is missing at all; otherwise the result names no files,
and if no path is a section in one file and something else in another, it is the files laid one over
the other in depth-first order, so that the last file that has a path tells where it ends. -/
theorem loadWith_inherits (h : IsHierarchy root kind f) :
    ∃ r, (∀ limit, fileCount root f ≤ limit → loadWith (readFile root) limit f = r) ∧
      (fileCount root f ≤ chainLimit → ofFile root f = r.map fun es => ⟨es⟩) ∧
      ((∃ q, r = .error (.missing q)) ↔ ∃ q, Reaches root f q ∧ IsMissing root q) ∧
      ((∀ q, Reaches root f q → ¬ IsMissing root q) →
        ∃ order es, DepthFirst root [f] order ∧ r = .ok es ∧ es.find? (.text "_base_") = none ∧
          ((∀ p q, Reaches root f p → Reaches root f q →
              Value.Agrees kind (.table (layer root p)) (.table (layer root q))) →
            es = Entries.stack (order.map (layer root)) ∧
              ∀ keys x, (∀ k ∈ keys, kind k) → x.isSection = false →
                ((Value.table es).reach? keys = some x ↔
                  Entries.LastSays keys x (order.map (layer root))))) := by
  have hload : ∀ limit, fileCount root f ≤ limit →
      loadWith (readFile root) limit f = loadWith (readFile root) (fileCount root f) f :=
    fun limit hlimit => h.loadWith_congr hlimit le_rfl
  have houtcome := h.outcome hkind hbase le_rfl
  refine ⟨_, hload, ?_, ?_⟩
  · intro hlimit
    rw [ofFile, hload _ hlimit]
  generalize loadWith (readFile root) (fileCount root f) f = r at houtcome
  cases houtcome with
  | @missing p q hp hq hmissing =>
    obtain rfl := List.mem_singleton.mp hp
    refine ⟨⟨fun _ => ⟨q, hq, hmissing⟩, fun _ => ⟨q, rfl⟩⟩, fun hall => ?_⟩
    exact absurd hmissing (hall q hq)
  | @found order es hfiles horder htree hnone hstack =>
    have hfile : ∀ q, Reaches root f q → IsFile root kind q := hfiles f List.mem_cons_self
    refine ⟨⟨fun ⟨q, hq⟩ => by simp at hq, fun ⟨q, hq, hmissing⟩ => ?_⟩, fun _ => ?_⟩
    · exact absurd hmissing (hfile q hq).not_isMissing
    refine ⟨order, es, horder, rfl, hnone, fun hagrees => ?_⟩
    have hreach : ∀ q ∈ order, Reaches root f q := by
      intro q hq
      obtain ⟨p, hp, hpq⟩ := horder.mem_iff.mp hq
      rwa [← List.mem_singleton.mp hp]
    have hcompatible : Entries.Compatible kind (order.map (layer root)) := by
      refine ⟨fun hes => ?_, fun hes hfs => ?_⟩
      · obtain ⟨q, hq, rfl⟩ := List.mem_map.mp hes
        exact (hfile q (hreach q hq)).tree.drop
      · obtain ⟨p, hp, rfl⟩ := List.mem_map.mp hes
        obtain ⟨q, hq, rfl⟩ := List.mem_map.mp hfs
        exact hagrees p q (hreach p hp) (hreach q hq)
    obtain rfl : es = Entries.stack (order.map (layer root)) := hstack [] rfl hcompatible
    exact ⟨rfl, fun keys x hkeys hx => Entries.reach?_stack_iff hkind hcompatible hkeys hx⟩

end Comparable

/-! ### A folder with files in it -/

/-- A folder in which `c` is laid over `a` and over `low/b`, which is laid over `a` itself. -/
def layeredFolder : Node :=
  .folder [("a", .file (.text "\"x\": \"1\"\n\"y\": \"1\"\n")),
    ("low", .folder [("b", .file (.text "\"_base_\": \"../a\"\n\"x\": \"2\"\n"))]),
    ("c", .file (.text "\"_base_\": [\"a\", \"low/b\"]\n\"x\": \"3\"\n"))]

theorem spelledAt?_a : spelledAt? layeredFolder ⟨"", ["a"]⟩ =
    some (.table [(.text "x", .text "1"), (.text "y", .text "1")]) := by
  cbv

theorem spelledAt?_back : spelledAt? layeredFolder ⟨"", ["low", "..", "a"]⟩ =
    some (.table [(.text "x", .text "1"), (.text "y", .text "1")]) := by
  cbv

theorem spelledAt?_b : spelledAt? layeredFolder ⟨"", ["low", "b"]⟩ =
    some (.table [(.text "_base_", .text "../a"), (.text "x", .text "2")]) := by
  cbv

theorem spelledAt?_c : spelledAt? layeredFolder ⟨"", ["c"]⟩ =
    some (.table [(.text "_base_", .list [.text "a", .text "low/b"]), (.text "x", .text "3")]) := by
  cbv

theorem basePaths_b : basePaths layeredFolder ⟨"", ["low", "b"]⟩ = [⟨"", ["low", "..", "a"]⟩] := by
  rw [basePaths, baseNames, spelled_eq spelledAt?_b]
  cbv

theorem basePaths_c :
    basePaths layeredFolder ⟨"", ["c"]⟩ = [⟨"", ["a"]⟩, ⟨"", ["low", "b"]⟩] := by
  rw [basePaths, baseNames, spelled_eq spelledAt?_c]
  cbv

theorem loadWith_inherits_layeredFolder : Atom.Comparable Atom.isText ∧
    Atom.isText (.text "_base_") ∧ IsHierarchy layeredFolder Atom.isText ⟨"", ["c"]⟩ ∧
    fileCount layeredFolder ⟨"", ["c"]⟩ ≤ chainLimit ∧
    ofFile layeredFolder ⟨"", ["c"]⟩ =
      .ok ⟨[(.text "x", .text "3"), (.text "y", .text "1")]⟩ := by
  have ha : basePaths layeredFolder ⟨"", ["a"]⟩ = [] := by
    rw [basePaths, baseNames, spelled_eq spelledAt?_a]
    rfl
  have hback : basePaths layeredFolder ⟨"", ["low", "..", "a"]⟩ = [] := by
    rw [basePaths, baseNames, spelled_eq spelledAt?_back]
    rfl
  let files : Set Path :=
    {⟨"", ["a"]⟩, ⟨"", ["low", "..", "a"]⟩, ⟨"", ["low", "b"]⟩, ⟨"", ["c"]⟩}
  have hfile : ∀ p ∈ files, IsFile layeredFolder Atom.isText p := by
    simp only [files, Set.mem_insert_iff, Set.mem_singleton_iff, forall_eq_or_imp, forall_eq]
    refine ⟨.of_table spelledAt?_a (by decide) (by rintro v ⟨⟩),
      .of_table spelledAt?_back (by decide) (by rintro v ⟨⟩),
      .of_table spelledAt?_b (by decide) ?_, .of_table spelledAt?_c (by decide) ?_⟩
    · rintro v ⟨⟩
      exact .inl ⟨_, rfl⟩
    · rintro v ⟨⟩
      exact .inr ⟨["a", "low/b"], rfl⟩
  have hnames : ∀ p ∈ files, ∀ q, Names layeredFolder p q → q ∈ files := by
    simp [files, Names, ha, hback, basePaths_b, basePaths_c]
  let rank (p : Path) : ℕ := if p.names = ["c"] then 2 else if p.names = ["low", "b"] then 1 else 0
  have hrank : ∀ p ∈ files, ∀ q, Names layeredFolder p q → rank q < rank p := by
    simp [files, rank, Names, ha, hback, basePaths_b, basePaths_c]
  have hmem : ⟨"", ["c"]⟩ ∈ files := by simp [files]
  have hreach {q : Path} (hq : Reaches layeredFolder ⟨"", ["c"]⟩ q) : q ∈ files :=
    mem_of_reaches hnames hmem hq
  have h : IsHierarchy layeredFolder Atom.isText ⟨"", ["c"]⟩ :=
    .of_rank files.toFinite (fun p hp => .inr (hfile p hp)) hnames hrank hmem
  have hcount : fileCount layeredFolder ⟨"", ["c"]⟩ ≤ chainLimit := by
    have hfour : files.ncard = 4 := by simp [files, Set.ncard_eq_toFinset_card']
    have hle : fileCount layeredFolder ⟨"", ["c"]⟩ ≤ files.ncard :=
      Set.ncard_le_ncard (fun q hq => hreach hq) files.toFinite
    exact hle.trans (by rw [hfour]; decide)
  obtain ⟨r, -, hloaded, -, hfound⟩ := loadWith_inherits Atom.comparable_isText rfl h
  obtain ⟨order, es, horder, rfl, -, hflat⟩ :=
    hfound fun q hq => (hfile q (hreach hq)).not_isMissing
  have hleaf : ∀ p ∈ files, ∀ e ∈ layer layeredFolder p, e.2.isSection = false := by
    simp only [files, Set.mem_insert_iff, Set.mem_singleton_iff, forall_eq_or_imp, forall_eq, layer,
      spelled_eq spelledAt?_a, spelled_eq spelledAt?_back, spelled_eq spelledAt?_b,
      spelled_eq spelledAt?_c]
    decide
  have hagrees : ∀ p q, Reaches layeredFolder ⟨"", ["c"]⟩ p →
      Reaches layeredFolder ⟨"", ["c"]⟩ q → Value.Agrees Atom.isText
        (.table (layer layeredFolder p)) (.table (layer layeredFolder q)) :=
    fun p q hp hq => .of_leaves Atom.comparable_isText (hfile p (hreach hp)).tree.drop
      (hfile q (hreach hq)).tree.drop (hleaf p (hreach hp)) (hleaf q (hreach hq))
  have hlow := DepthFirst.single ha .nil
  have hmiddle := DepthFirst.single basePaths_b (DepthFirst.single hback .nil)
  obtain rfl := horder.unique (.single basePaths_c (hlow.append hmiddle))
  obtain rfl := (hflat hagrees).1
  refine ⟨Atom.comparable_isText, rfl, h, hcount, ?_⟩
  rw [hloaded hcount]
  simp only [List.map_cons, List.map_nil, List.cons_append, List.nil_append, layer,
    spelled_eq spelledAt?_a, spelled_eq spelledAt?_back, spelled_eq spelledAt?_b,
    spelled_eq spelledAt?_c]
  rfl

end Settings

end OptimalAssignment
