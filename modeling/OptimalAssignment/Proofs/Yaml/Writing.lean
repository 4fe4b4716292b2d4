import Mathlib
import OptimalAssignment.Proofs.Text.Splitting
import OptimalAssignment.Text.Newline
import OptimalAssignment.Yaml.Writing

/-!
The characters of written values. Whatever the value, nothing but printable characters of the first
hundred and twenty-eight and line feeds is written; all others are escaped. So a file that holds
what was written is read as it was written.
-/
namespace OptimalAssignment

variable {c d : Char} {cs ds run : List Char}

/-! ### Plain characters -/

/-- Whether characters are line feeds and printable ones of the first hundred and twenty-eight. -/
def IsPlain (cs : List Char) : Prop :=
  ∀ c ∈ cs, c = '\n' ∨ ' ' ≤ c ∧ c ≤ '~'

instance : Decidable (IsPlain cs) :=
  List.decidableBAll (fun c => c = '\n' ∨ ' ' ≤ c ∧ c ≤ '~') cs

theorem IsPlain.append (h : IsPlain cs) (h' : IsPlain ds) : IsPlain (cs ++ ds) :=
  List.forall_mem_append.mpr ⟨h, h'⟩

theorem IsPlain.mono (h : IsPlain cs) (hsub : ds ⊆ cs) : IsPlain ds :=
  fun c hc => h c (hsub hc)

theorem isPlain_singleton : IsPlain [c] ↔ c = '\n' ∨ ' ' ≤ c ∧ c ≤ '~' := by
  simp [IsPlain]

theorem isPlain_cons : IsPlain (c :: cs) ↔ (c = '\n' ∨ ' ' ≤ c ∧ c ≤ '~') ∧ IsPlain cs :=
  List.forall_mem_cons

theorem isPlain_replicate {n : ℕ} (h : IsPlain [c]) : IsPlain (List.replicate n c) := by
  intro d hd
  rw [List.eq_of_mem_replicate hd]
  exact isPlain_singleton.mp h

theorem isPlain_digitChar {n : ℕ} (h : n < 16) :
    IsPlain [n.digitChar] ∧ IsPlain [n.digitChar.toUpper] := by
  have hall : ∀ n < 16, (' ' ≤ n.digitChar ∧ n.digitChar ≤ '~') ∧
      (' ' ≤ n.digitChar.toUpper ∧ n.digitChar.toUpper ≤ '~') := by decide
  exact ⟨isPlain_singleton.mpr (.inr (hall n h).1), isPlain_singleton.mpr (.inr (hall n h).2)⟩

theorem isPlain_toDigits {b : ℕ} (hb : 1 < b) (hb' : b ≤ 16) (n : ℕ) :
    IsPlain (Nat.toDigits b n) ∧ IsPlain ((Nat.toDigits b n).map Char.toUpper) := by
  induction n using Nat.strong_induction_on with
  | h n ih =>
    rw [Nat.toDigits_eq_if hb]
    split
    next hn => exact isPlain_digitChar (by omega)
    next hn =>
      have hlt : n / b < n := Nat.div_lt_self (by omega) hb
      have hmod : n % b < b := Nat.mod_lt n (by omega)
      obtain ⟨hlow, hupper⟩ := isPlain_digitChar (by omega : n % b < 16)
      rw [List.map_append]
      exact ⟨(ih _ hlt).1.append hlow, (ih _ hlt).2.append hupper⟩

/-- A text of plain characters is read from a file as it is. -/
theorem Text.ofFile_eq {s : String} (h : IsPlain s.toList) : Text.ofFile s = s := by
  have hplain : ∀ cs, IsPlain cs → Text.plainNewlines cs = cs := by
    intro cs hcs
    induction cs with
    | nil => rfl
    | cons c cs ih =>
      obtain ⟨hc, hcs⟩ := isPlain_cons.mp hcs
      have hne : c ≠ '\r' := by
        rintro rfl
        exact absurd hc (by decide)
      rw [Text.plainNewlines, ih hcs] <;> simp_all
  rw [Text.ofFile, hplain _ h, String.ofList_toList]

namespace Yaml

theorem isPlain_of_needsEscapes (h : needsEscapes cs = false) : IsPlain cs := by
  intro c hc
  have hplain := List.any_eq_false.mp h c hc
  by_cases hline : c = '\n'
  · exact .inl hline
  · simp_all

/-! ### Runs -/

theorem flatten_runs (cs : List Char) : (runs cs).flatten = cs := by
  induction cs with
  | nil => rfl
  | cons c cs ih =>
    rw [runs]
    split
    next d run others hruns =>
      rw [hruns, List.flatten_cons] at ih
      split <;> simp [← ih]
    · simp [ih]

theorem subset_of_mem_runs (h : run ∈ runs cs) : run ⊆ cs := by
  intro c hc
  rw [← flatten_runs cs]
  exact List.mem_flatten_of_mem h hc

namespace Pen

variable {p : Pen} {indent : ℕ} {split : Bool}

theorem isPlain_hexPadded (width n : ℕ) :
    IsPlain ((Text.hexPadded width n).map Char.toUpper).toList := by
  rw [Text.hexPadded, String.toList_map, String.toList_ofList, List.map_append,
    List.map_replicate]
  exact (isPlain_replicate (by decide)).append (isPlain_toDigits (by omega) le_rfl n).2

theorem isPlain_escapeText (c : Char) : IsPlain (escapeText c) := by
  rw [escapeText]
  split
  next letter h =>
    obtain ⟨before, after, htable, -⟩ := List.lookup_eq_some_iff.mp h
    have hmem : (c, letter) ∈ before ++ (c, letter) :: after := by simp
    rw [← htable] at hmem
    refine (?_ : ∀ e ∈ _, IsPlain ['\\', e.2]) (c, letter) hmem
    decide
  · split
    · exact IsPlain.append (by decide) (isPlain_hexPadded _ _)
    · split
      · exact IsPlain.append (by decide) (isPlain_hexPadded _ _)
      · exact IsPlain.append (by decide) (isPlain_hexPadded _ _)

/-! ### The pen -/

/-- Whether all that a pen has written is plain. -/
def WritesPlain (p : Pen) : Prop :=
  IsPlain p.written.toList

theorem WritesPlain.put (h : p.WritesPlain) (hcs : IsPlain cs) : (p.put cs).WritesPlain := by
  rw [WritesPlain, Pen.put, String.toList_append, String.toList_ofList]
  exact h.append hcs

theorem WritesPlain.breakLine (h : p.WritesPlain) : p.breakLine.WritesPlain := by
  rw [WritesPlain, Pen.breakLine, String.toList_append]
  exact h.append (by decide)

theorem WritesPlain.inLine (h : p.WritesPlain) : p.inLine.WritesPlain := h

theorem WritesPlain.indentTo (h : p.WritesPlain) (n : ℕ) : (p.indentTo n).WritesPlain := by
  have hline (b : Bool) : (if b then p.breakLine else p).WritesPlain := by
    cases b with
    | false => exact h
    | true => exact h.breakLine
  have hfill (q : Pen) (hq : q.WritesPlain) : (if q.column < n then
      { q.put (List.replicate (n - q.column) ' ') with spaced := true } else q).WritesPlain := by
    split
    · exact hq.put (isPlain_replicate (by decide))
    · exact hq
  exact hfill _ (hline _)

theorem WritesPlain.mark (h : p.WritesPlain) (hc : IsPlain [c])
    (needsBlank spacedAfter keepsFresh : Bool) :
    (p.mark c needsBlank spacedAfter keepsFresh).WritesPlain := by
  have hput : (if p.spaced || !needsBlank then p.put [c] else p.put [' ', c]).WritesPlain := by
    split
    · exact h.put hc
    · exact h.put (IsPlain.append (by decide : IsPlain [' ']) hc)
  exact hput

theorem WritesPlain.spaced (h : p.WritesPlain) :
    (if p.spaced then p else p.put [' ']).WritesPlain := by
  split
  · exact h
  · exact h.put (by decide)

theorem WritesPlain.word (h : p.WritesPlain) {s : String} (hs : IsPlain s.toList) :
    (p.word s).WritesPlain :=
  h.spaced.put hs

/-! ### Texts -/

theorem WritesPlain.plain (h : p.WritesPlain) (hcs : IsPlain cs) :
    (p.plain indent split cs).WritesPlain := by
  rw [Pen.plain]
  split
  · exact h
  have hruns : ∀ runs : List (List Char), (∀ run ∈ runs, IsPlain run) → ∀ p : Pen, p.WritesPlain →
      (runs.foldl (plainRun indent split) p).WritesPlain := by
    intro runs hruns
    induction runs with
    | nil => exact fun _ h => h
    | cons run runs ih =>
      obtain ⟨hrun, hruns⟩ := List.forall_mem_cons.mp hruns
      intro p h
      refine ih hruns _ ?_
      rw [plainRun]
      split
      · exact (h.indentTo indent).inLine
      · exact h.put hrun
  exact hruns _ (fun run hrun => hcs.mono (subset_of_mem_runs hrun)) _ h.spaced.inLine

theorem isPlain_quoted (h : IsPlain run) :
    IsPlain (run.flatMap fun c => if c == '\'' then ['\'', '\''] else [c]) := by
  intro c hc
  obtain ⟨d, hd, hc⟩ := List.mem_flatMap.mp hc
  by_cases hquote : d = '\''
  · subst hquote
    have hplain : IsPlain ['\'', '\''] := by decide
    exact hplain c hc
  · rw [if_neg (by simpa using hquote), List.mem_singleton] at hc
    exact hc ▸ h d hd

theorem WritesPlain.breakLines (h : p.WritesPlain) :
    (run.foldl (fun p _ => p.breakLine) p).WritesPlain := by
  induction run generalizing p with
  | nil => exact h
  | cons _ run ih => exact ih h.breakLine

theorem WritesPlain.singleRun (h : p.WritesPlain) (hrun : IsPlain run) (edge : Bool) :
    (singleRun indent split edge run p).WritesPlain := by
  unfold Pen.singleRun
  split
  · exact h.breakLine.breakLines.indentTo indent
  · split
    · exact h.indentTo indent
    · exact h.put (isPlain_quoted hrun)

theorem WritesPlain.singleRuns {runs : List (List Char)} (hruns : ∀ run ∈ runs, IsPlain run)
    (h : p.WritesPlain) (first : Bool) : (singleRuns indent split first runs p).WritesPlain := by
  induction runs generalizing first p with
  | nil => exact h
  | cons run runs ih =>
    obtain ⟨hrun, hruns⟩ := List.forall_mem_cons.mp hruns
    exact ih hruns (h.singleRun hrun _) false

theorem WritesPlain.single (h : p.WritesPlain) (hcs : IsPlain cs) :
    (p.single indent split cs).WritesPlain := by
  have hruns : ∀ run ∈ runs cs, IsPlain run := fun run hrun => hcs.mono (subset_of_mem_runs hrun)
  exact (WritesPlain.singleRuns hruns (h.mark (by decide) _ _ _) true).mark (by decide) _ _ _

theorem isPlain_of_isEscaped (h : isEscaped c = false) : IsPlain [c] := by
  simp only [isEscaped, Bool.or_eq_false_iff, Bool.not_eq_false', Bool.and_eq_true,
    decide_eq_true_eq] at h
  exact isPlain_singleton.mpr (.inr h.2)

/-- The pen after a line was cut behind a backslash. -/
theorem WritesPlain.cut {held : List Char} (h : p.WritesPlain) (hheld : IsPlain held)
    (marked : Bool) :
    (if marked then (((p.put (held ++ ['\\'])).indentTo indent).inLine).put ['\\']
      else ((p.put (held ++ ['\\'])).indentTo indent).inLine).WritesPlain := by
  have hline : (((p.put (held ++ ['\\'])).indentTo indent).inLine).WritesPlain :=
    ((h.put (hheld.append (by decide))).indentTo indent).inLine
  cases marked with
  | false => exact hline
  | true => exact hline.put (by decide)

/-- Characters between double quotes; those that are held back are plain. -/
theorem WritesPlain.doubleFrom {held : List Char} (h : p.WritesPlain) (hheld : IsPlain held)
    (first : Bool) : (doubleFrom indent split first held cs p).WritesPlain := by
  induction cs generalizing first held p with
  | nil => exact h.put hheld
  | cons c cs ih =>
    have hnil : IsPlain [] := by decide
    rw [Pen.doubleFrom]
    cases hescaped : isEscaped c with
    | true =>
      have hput : ((p.put held).put (escapeText c)).WritesPlain :=
        (h.put hheld).put (isPlain_escapeText c)
      simp only [if_true]
      split
      · exact ih (hput.cut hnil _) hnil false
      · exact ih hput hnil false
    | false =>
      have hc : IsPlain [c] := isPlain_of_isEscaped hescaped
      simp only [Bool.false_eq_true, if_false]
      split
      · exact ih (h.cut hheld _) hc false
      · exact ih h (hheld.append hc) false

theorem WritesPlain.double (h : p.WritesPlain) : (p.double indent split cs).WritesPlain :=
  (WritesPlain.doubleFrom (h.mark (by decide) _ _ _) (by decide) true).mark (by decide) _ _ _

/-- A text is plain, or it is written between double quotes. -/
theorem WritesPlain.text (h : p.WritesPlain) (t : Tag) : (p.text t indent split cs).WritesPlain := by
  have hplain (hstyle : styleOf t cs ≠ .double) : IsPlain cs := by
    refine isPlain_of_needsEscapes ?_
    by_contra hescapes
    simp only [Bool.not_eq_false] at hescapes
    exact hstyle (by simp [styleOf, hescapes])
  rw [Pen.text]
  cases hstyle : styleOf t cs with
  | plain => exact h.plain (hplain (by simp [hstyle]))
  | single => exact h.single (hplain (by simp [hstyle]))
  | double => exact h.double

/-! ### Bytes -/

theorem isPlain_groupOf (bytes : List UInt8) : IsPlain (Text.groupOf bytes) := by
  have hchars : IsPlain Text.sextetChars := by decide
  have hsextet (n : ℕ) : IsPlain [Text.sextetChars.getD (n % 64) 'A'] := by
    rw [isPlain_singleton]
    have hlength : n % 64 < Text.sextetChars.length := Nat.mod_lt n (by decide)
    rw [List.getD_eq_getElem _ _ hlength]
    exact hchars _ (List.getElem_mem hlength)
  refine IsPlain.append (IsPlain.mono ?_ (List.take_subset _ _)) (isPlain_replicate (by decide))
  intro c hc
  obtain ⟨n, -, rfl⟩ := List.mem_map.mp hc
  exact isPlain_singleton.mp (hsextet n)

theorem isPlain_toBase64 (bytes : List UInt8) : IsPlain (Text.toBase64 bytes) := by
  fun_induction Text.toBase64 bytes with
  | case1 a b c rest ih => exact (isPlain_groupOf _).append ih
  | case2 => decide
  | case3 rest => exact isPlain_groupOf rest

theorem isPlain_bytesLines (fuel : ℕ) (h : IsPlain cs) : IsPlain (bytesLines fuel cs) := by
  induction fuel generalizing cs with
  | zero => exact h
  | succ fuel ih =>
    rw [bytesLines]
    split
    · decide
    · refine (h.mono (List.take_subset _ _)).append ?_
      exact isPlain_cons.mpr ⟨.inl rfl, ih (h.mono (List.drop_subset _ _))⟩

theorem WritesPlain.lines (h : p.WritesPlain) (hcs : IsPlain cs) :
    (p.lines indent cs).WritesPlain := by
  have hall : ∀ lines : List String, (∀ line ∈ lines, IsPlain line.toList) → ∀ p : Pen,
      p.WritesPlain →
      (lines.foldl (fun p line => p.breakLine.indentTo indent |>.put line.toList) p).WritesPlain := by
    intro lines hlines
    induction lines with
    | nil => exact fun _ h => h
    | cons line lines ih =>
      obtain ⟨hline, hlines⟩ := List.forall_mem_cons.mp hlines
      exact fun p h => ih hlines _ ((h.breakLine.indentTo indent).put hline)
  refine hall _ (fun line hline => ?_) _ (h.word (by decide))
  have hmem : line ∈ (String.ofList cs).splitOn (String.singleton '\n') :=
    List.mem_of_mem_filter hline
  have hsub := Text.subset_of_mem_splitOn hmem
  rw [String.toList_ofList] at hsub
  exact hcs.mono hsub

/-! ### Drafts -/

theorem WritesPlain.atom (h : p.WritesPlain) (a : Atom) : (p.atom a indent split).WritesPlain := by
  unfold Pen.atom
  split
  next data =>
    refine (h.word (by decide)).lines ?_
    rw [atomText, String.toList_ofList]
    exact isPlain_bytesLines _ (isPlain_toBase64 data)
  · exact h.text _

theorem isPlain_anchorName (n : ℕ) : IsPlain (Draft.anchorName n).toList := by
  have hdigits : IsPlain (Moment.padded 3 n).toList := by
    rw [Moment.padded, String.toList_ofList]
    exact (isPlain_replicate (by decide)).append (isPlain_toDigits (by omega) (by omega) n).1
  rw [Draft.anchorName, String.toList_append]
  exact IsPlain.append (by decide) hdigits

theorem WritesPlain.anchor (h : p.WritesPlain) (n : Option ℕ) : (p.anchor n).WritesPlain := by
  cases n with
  | none => exact h
  | some n =>
    refine h.word ?_
    rw [String.toList_append]
    exact IsPlain.append (by decide) (isPlain_anchorName n)

theorem WritesPlain.leaf (h : p.WritesPlain) (d : Draft) :
    (p.leaf d indent split).WritesPlain := by
  unfold Pen.leaf
  split
  · exact (h.anchor _).atom _
  next n =>
    refine h.word ?_
    rw [String.toList_append]
    exact IsPlain.append (by decide) (isPlain_anchorName n)
  · exact h

theorem WritesPlain.key (h : p.WritesPlain) (d : Draft) : (p.key d indent).WritesPlain := by
  unfold Pen.key
  dsimp only
  split
  · exact ((h.indentTo indent).leaf d).mark (by decide) _ _ _
  · exact ((((h.indentTo indent).mark (by decide) _ _ _).leaf d).indentTo indent).mark
      (by decide) _ _ _

mutual

theorem WritesPlain.draft {p : Pen} (h : p.WritesPlain) (behindKey : Bool) (around : Option ℕ) :
    ∀ d : Draft, (p.draft behindKey around d).WritesPlain
  | .scalar _ _ => h.leaf _
  | .alias _ => h.leaf _
  | .sequence n [] => by
    rw [Pen.draft]
    exact ((h.anchor n).mark (by decide) _ _ _).mark (by decide) _ _ _
  | .sequence n (d :: ds) => by
    rw [Pen.draft]
    · exact (h.anchor n).listItems (d :: ds)
    · simp
  | .mapping n isSet entries => by
    have hset : (if isSet then (p.anchor n).word "!!set" else p.anchor n).WritesPlain := by
      cases isSet with
      | false => exact h.anchor n
      | true => exact (h.anchor n).word (by decide)
    cases entries with
    | nil =>
      rw [Pen.draft]
      exact (hset.mark (by decide) _ _ _).mark (by decide) _ _ _
    | cons e es =>
      rw [Pen.draft]
      · exact hset.tableEntries (e :: es)
      · simp

theorem WritesPlain.listItems {p : Pen} {indent : ℕ} (h : p.WritesPlain) :
    ∀ ds : List Draft, (listItems indent p ds).WritesPlain
  | [] => h
  | d :: ds => by
    have hmark : ((p.indentTo indent).mark '-' true false true).WritesPlain :=
      (h.indentTo indent).mark (by decide) _ _ _
    exact (hmark.draft false (some indent) d).listItems ds

theorem WritesPlain.tableEntries {p : Pen} {indent : ℕ} (h : p.WritesPlain) :
    ∀ es : List (Draft × Draft), (tableEntries indent p es).WritesPlain
  | [] => h
  | (k, d) :: es => ((h.key k).draft true (some indent) d).tableEntries es

end

end Pen

/-- All that is written of a value is plain. -/
theorem isPlain_writeShared (v : Value) (shared : Sharing) :
    IsPlain (writeShared v shared).toList := by
  have hblank : Pen.WritesPlain {} := (by decide : IsPlain [])
  exact (hblank.draft false none _).indentTo 0

end Yaml

end OptimalAssignment
