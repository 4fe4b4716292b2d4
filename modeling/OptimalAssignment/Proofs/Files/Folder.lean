import Mathlib
import OptimalAssignment.Files.Folder

/-!
Writing to the working folder. A file can only take the place of a file or of nothing, so no folder
is lost by it, every path leads where it led before, and the file is found under the path that it
was written to.
-/
namespace OptimalAssignment.Node

variable {root saved new : Node} {names reached path : List String} {name other : String}
  {spot : Spot} {p : Path} {content : Content}

theorem entry?_plant : entry? (plant new (name :: names) root) other =
    if other = name then some (plant new names ((root.entry? name).getD empty))
    else root.entry? other :=
  Named.lookup_put ..

theorem descend?_plant : (plant new names root).descend? names = some new := by
  induction names generalizing root with
  | nil => rfl
  | cons name names ih => rw [descend?, entry?_plant, if_pos rfl, Option.bind_some, ih]

theorem descend?_file (h : root.isFolder = false) : root.descend? (name :: names) = none := by
  cases root with
  | file content => rfl
  | folder entries => contradiction

/-- No folder is lost when a node is put where there is none. -/
theorem isFolder_descend?_plant (hfree : (root.descend? names).any isFolder = false)
    (h : (root.descend? reached).any isFolder) :
    ((plant new names root).descend? reached).any isFolder := by
  induction reached generalizing names root with
  | nil =>
    cases names with
    | nil => simp_all [descend?]
    | cons name names => rfl
  | cons step reached ih =>
    cases names with
    | nil =>
      rw [descend?_file (by simpa [descend?] using hfree)] at h
      contradiction
    | cons name names =>
      rw [descend?, entry?_plant]
      split
      · subst step
        cases hchild : root.entry? name with
        | none => simp [descend?, hchild] at h
        | some child =>
          rw [descend?, hchild, Option.bind_some] at hfree h
          exact ih hfree h
      · exact h

/-- A name is looked up in a folder that is there. -/
theorem isFolder_of_locate (h : locate root (.within reached) (name :: path) = .ok spot) :
    (root.descend? reached).any isFolder := by
  match hnode : root.descend? reached with
  | none => simp [locate, hnode] at h
  | some (.file _) => simp [locate, hnode] at h
  | some (.folder _) => rfl

theorem locate_within_cons (h : (root.descend? reached).any isFolder) :
    locate root (.within reached) (name :: path) =
      if name = ".." then
        locate root (if reached.isEmpty then .beyond [] else .within reached.dropLast) path
      else if Path.isLongName name then .error .tooLong
      else locate root (.within (reached ++ [name])) path := by
  match hnode : root.descend? reached with
  | none => simp [hnode] at h
  | some (.file _) => simp [hnode, isFolder] at h
  | some (.folder _) => rw [locate, hnode]

/-- Paths lead where they led before a node was put where they lead. -/
theorem locate_plant (hfree : (root.descend? names).any isFolder = false)
    (h : locate root spot path = .ok (.within names)) :
    locate (plant new names root) spot path = .ok (.within names) := by
  induction path generalizing spot with
  | nil => exact h
  | cons name path ih =>
    cases spot with
    | beyond reached =>
      rw [locate] at h ⊢
      split_ifs at h ⊢ <;> exact ih h
    | within reached =>
      have hfolder : (root.descend? reached).any isFolder := isFolder_of_locate h
      rw [locate_within_cons hfolder] at h
      rw [locate_within_cons (isFolder_descend?_plant hfree hfolder)]
      split_ifs at h ⊢ <;> exact ih h

/-- What can be written to: a path that is not too long and does not lead to a folder. -/
theorem spotOf_of_write (h : root.write p content = .ok saved) :
    p.isTooLong = false ∧ ∃ spot, root.spotOf p = .ok spot ∧
      (root.nodeAt? spot).any isFolder = false ∧ saved = plantAt (.file content) root spot := by
  unfold write at h
  cases hcheck : checkPath p with
  | error fault => simp [hcheck, bind, Except.bind] at h
  | ok _ =>
    have hlong : p.isTooLong = false := by
      unfold checkPath at hcheck
      split_ifs at hcheck with hzero hlong
      simpa using hlong
    cases hspot : root.spotOf p with
    | error fault => simp [hcheck, hspot, bind, Except.bind] at h
    | ok spot =>
      refine ⟨hlong, spot, rfl, ?_⟩
      simp only [hcheck, hspot, bind, Except.bind] at h
      split at h
      · contradiction
      · next hfree =>
        refine ⟨?_, (Except.ok.inj h).symm⟩
        match hnode : root.nodeAt? spot with
        | none => rfl
        | some (.file _) => rfl
        | some (.folder entries) => exact absurd hnode (hfree entries)

/-- What is written within the working folder is found under the path that it was written to. -/
theorem find_of_write (h : root.write p content = .ok saved)
    (hwithin : saved.spotOf p = .ok (.within names)) : saved.find p = .ok (.file content) := by
  obtain ⟨hlong, spot, hspot, hfree, rfl⟩ := spotOf_of_write h
  cases spot with
  | beyond reached =>
    -- nothing is kept of what is written beyond the working folder
    rw [plantAt, hspot] at hwithin
    cases Except.ok.inj hwithin
  | within reached =>
    have hsame : (plant (.file content) reached root).spotOf p = .ok (.within reached) :=
      locate_plant hfree hspot
    simp only [find, hlong, plantAt, hsame, nodeAt?, descend?_plant, bind, Except.bind]
    rfl

end OptimalAssignment.Node
