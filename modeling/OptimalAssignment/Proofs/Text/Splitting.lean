import Mathlib

/-!
Texts split at a character. The pieces are those of the list of characters, so splitting undoes
putting a character between texts that do not have it.
-/
namespace OptimalAssignment.Text

open String

/-- The part of a text that was read since the last break is `m`; what comes before it is `l`. -/
theorem splitOnAux_singleton (c : Char) (l m r : List Char) (pieces : List String) :
    splitOnAux (ofList (l ++ m ++ r)) (singleton c) ⟨utf8Len l⟩ ⟨utf8Len l + utf8Len m⟩ 0 pieces =
      pieces.reverse ++ (List.splitOnPPrepend (· == c) r m.reverse).map ofList := by
  rw [splitOnAux]
  simp only [List.append_assoc, atEnd_iff, rawEndPos_ofList, utf8Len_append, Pos.Raw.mk_le_mk,
    Nat.add_le_add_iff_left, (by omega : utf8Len m + utf8Len r ≤ utf8Len m ↔ utf8Len r = 0),
    utf8Len_eq_zero, List.reverse_cons]
  split
  · subst r
    simpa using extract_of_valid l m []
  · obtain ⟨d, r, rfl⟩ := r.exists_cons_of_ne_nil ‹_›
    have hget : Pos.Raw.get (ofList (l ++ (m ++ d :: r))) ⟨utf8Len l + utf8Len m⟩ = d := by
      simpa [-ofList_append] using get_of_valid (l ++ m) (d :: r)
    have hnext : Pos.Raw.next (ofList (l ++ (m ++ d :: r))) ⟨utf8Len l + utf8Len m⟩ =
        ⟨utf8Len l + utf8Len m + d.utf8Size⟩ := by
      simpa [-ofList_append] using next_of_valid (l ++ m) d r
    have hpiece : Pos.Raw.extract (ofList (l ++ (m ++ d :: r))) ⟨utf8Len l⟩
        ⟨utf8Len l + utf8Len m⟩ = ofList m := by
      simpa [-ofList_append] using extract_of_valid l m (d :: r)
    have hsep : Pos.Raw.get (singleton c) 0 = c := by
      simpa using get_of_valid [] [c]
    have hsepNext : Pos.Raw.next (singleton c) 0 = ⟨c.utf8Size⟩ := by
      simpa using next_of_valid [] c []
    have hsepEnd : (singleton c).rawEndPos = ⟨c.utf8Size⟩ := by
      simpa using @rawEndPos_ofList [c]
    have hstay (i : Pos.Raw) : i.unoffsetBy 0 = i := rfl
    rw [hstay, hget, hnext, hsep, hsepNext, hsepEnd]
    by_cases h : d = c
    · subst h
      have hback : Pos.Raw.unoffsetBy ⟨utf8Len l + utf8Len m + d.utf8Size⟩ ⟨d.utf8Size⟩ =
          ⟨utf8Len l + utf8Len m⟩ := by
        simp [Pos.Raw.ext_iff]
      simp only [BEq.rfl, if_true, hback, hpiece]
      simpa [Nat.add_assoc, List.splitOnPPrepend_cons_eq_if] using
        splitOnAux_singleton d (l ++ m ++ [d]) [] r (ofList m :: pieces)
    · have hne : (d == c) = false := by simpa using h
      simp only [hne, Bool.false_eq_true, if_false]
      simpa [List.splitOnPPrepend_cons_eq_if, h, Nat.add_assoc] using
        splitOnAux_singleton c l (m ++ [d]) r pieces

theorem splitOn_singleton (s : String) (c : Char) :
    s.splitOn (singleton c) = (s.toList.splitOn c).map ofList := by
  have hne : (singleton c == "") = false := by simp
  have h := splitOnAux_singleton c [] [] s.toList []
  simp only [List.nil_append, ofList_toList, List.reverse_nil] at h
  rw [splitOn, hne]
  exact h

theorem splitOn_ne_nil (s : String) (c : Char) : s.splitOn (singleton c) ≠ [] := by
  rw [splitOn_singleton, ne_eq, List.map_eq_nil_iff]
  exact List.splitOn_ne_nil c s.toList

theorem splitOn_intercalate {c : Char} {pieces : List String} (hne : pieces ≠ [])
    (h : ∀ piece ∈ pieces, c ∉ piece.toList) :
    ((singleton c).intercalate pieces).splitOn (singleton c) = pieces := by
  have hlists : ∀ piece ∈ pieces.map toList, c ∉ piece := by simpa using h
  rw [splitOn_singleton, toList_intercalate, toList_singleton,
    List.splitOn_intercalate c hlists (by simpa using hne)]
  simp

theorem intercalate_splitOn (s : String) (c : Char) :
    (singleton c).intercalate (s.splitOn (singleton c)) = s := by
  apply toList_injective
  rw [splitOn_singleton, toList_intercalate, toList_singleton, List.map_map]
  simp

theorem splitOn_append {c : Char} {s t : String} (h : c ∉ s.toList) :
    (s ++ singleton c ++ t).splitOn (singleton c) = s :: t.splitOn (singleton c) := by
  rw [splitOn_singleton, splitOn_singleton]
  simp [List.splitOn_append_cons_self_of_not_mem h]

theorem subset_intercalate {sep piece : List Char} {pieces : List (List Char)}
    (h : piece ∈ pieces) : piece ⊆ sep.intercalate pieces := by
  induction pieces with
  | nil => simp at h
  | cons first pieces ih =>
    obtain _ | ⟨second, pieces⟩ := pieces
    · obtain rfl := List.mem_singleton.mp h
      simp [List.intercalate]
    · rw [List.intercalate_cons_cons]
      rcases List.mem_cons.mp h with rfl | h
      · exact fun _ hc => List.mem_append_left _ (List.mem_append_left _ hc)
      · exact fun _ hc => List.mem_append_right _ (ih h hc)

theorem subset_of_mem_splitOn {s piece : String} {c : Char}
    (h : piece ∈ s.splitOn (singleton c)) : piece.toList ⊆ s.toList := by
  rw [splitOn_singleton] at h
  obtain ⟨part, hpart, rfl⟩ := List.mem_map.mp h
  have hsub : part ⊆ [c].intercalate (s.toList.splitOn c) := subset_intercalate hpart
  rwa [List.intercalate_splitOn, ← toList_ofList (l := part)] at hsub

end OptimalAssignment.Text
