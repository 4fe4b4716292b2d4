import Mathlib
import OptimalAssignment.Settings.Desk
import OptimalAssignment.Proofs.Files.Folder
import OptimalAssignment.Proofs.Settings.Apart
import OptimalAssignment.Proofs.Settings.Covering
import OptimalAssignment.Proofs.Yaml.Writing

/-!
Settings that are saved and loaded again. Provided that the text of settings spells them, their file
gives them back as they were. Loaded over the defaults, they keep all they had, and are the same
again just if they lack no key of the defaults in any section that both have.
-/
namespace OptimalAssignment

variable {d : Desk} {read : Path → Except Settings.LoadFault Value} {root saved : Node} {p : Path}
  {es : Entries} {names : List String} {limit : ℕ}

namespace Entries

theorem drop_eq_self {key : Atom} (h : find? key es = none) : drop key es = es := by
  rw [find?_eq_none_iff] at h
  exact List.filter_eq_self.mpr fun e he => by simp [h e he]

end Entries

namespace Settings

theorem isTree_defaults : defaults.entries.IsTree Atom.isText := by
  decide

theorem topEntries_table : topEntries (.table es) = .ok es := by
  cases es <;> rfl

/-- A file that names no others gives what it spells. -/
theorem loadWith_of_no_bases (htree : es.IsTree Atom.isText)
    (hbase : es.find? (.text "_base_") = none) (hread : read p = .ok (.table es)) :
    loadWith read (limit + 1) p = .ok es := by
  have hends : Value.anyEndless es = false := Value.isEndless_eq_false (v := .table es) htree
  have hbases : basesOf es = .ok [] := by rw [basesOf, baseKey, hbase]
  have hlaid : Entries.overlay [] (es.drop baseKey) = es := by
    rw [baseKey, Entries.drop_eq_self hbase, Entries.nil_overlay Atom.comparable_isText htree]
  simp only [loadWith, hread, topEntries_table, hbases, hlaid, hends, bind, Except.bind, pure,
    Except.pure, List.foldlM_nil]
  rfl

end Settings

namespace Desk

/-- The text of settings is read from a file as it was written. -/
theorem ofFile_written : Text.ofFile d.written = d.written :=
  Text.ofFile_eq (Yaml.isPlain_writeShared _ _)

theorem find_of_save (h : d.save root p = .ok saved)
    (hwithin : saved.spotOf p = .ok (.within names)) :
    saved.find p = .ok (.file (.text d.written)) := by
  unfold save at h
  cases hmade : root.makeFolders p.parent with
  | error fault => simp [hmade, bind, Except.bind] at h
  | ok made =>
    have hwrite : made.write p (.text d.written) = .ok saved := by
      rw [hmade] at h
      exact h
    exact Node.find_of_write hwrite hwithin

theorem readFile_of_save {v : Value} (hread : Yaml.read d.written = .ok v)
    (h : d.save root p = .ok saved) (hwithin : saved.spotOf p = .ok (.within names)) :
    Settings.readFile saved p = .ok v := by
  simp only [Settings.readFile, find_of_save h hwithin, ofFile_written, hread]

/-- Settings are saved as a text from which they are read again, and come back from their file,
wherever it is kept. Loaded over the defaults they come back up to the order of the keys just if
they have, in every section that both have, all keys of the defaults. -/
theorem save_load (d : Desk) (htree : d.settings.entries.IsTree Atom.isText)
    (hbase : d.settings.entries.find? (.text "_base_") = none)
    (hread : Yaml.read (Yaml.writeShared (.table d.settings.entries) d.shared) =
      .ok (.table d.settings.entries)) :
    (∀ (read : Path → Except Settings.LoadFault Value) (p : Path) (limit : ℕ),
      read p = (Yaml.read (Text.ofFile d.written)).mapError .unreadable →
      Settings.loadWith read (limit + 1) p = .ok d.settings.entries) ∧
    (∀ (root saved : Node) (p : Path) (names : List String), d.save root p = .ok saved →
      saved.spotOf p = .ok (.within names) →
      Settings.ofFile saved p = .ok d.settings ∧
      Settings.load saved p = .ok (Settings.defaults.merge d.settings)) ∧
    ((Settings.defaults.merge d.settings).entries.Reordered d.settings.entries ↔
      Value.Covers (.table Settings.defaults.entries) (.table d.settings.entries)) := by
  have hwritten : Yaml.read d.written = .ok (.table d.settings.entries) := hread
  refine ⟨fun read p limit hp => ?kept, fun root saved p names hsave hwithin => ?loaded,
    Entries.reordered_overlay_iff Settings.isTree_defaults htree⟩
  case kept =>
    rw [ofFile_written, hwritten] at hp
    exact Settings.loadWith_of_no_bases htree hbase hp
  case loaded =>
    have hfile : Settings.ofFile saved p = .ok d.settings := by
      rw [Settings.ofFile, Settings.chainLimit,
        Settings.loadWith_of_no_bases htree hbase (readFile_of_save hwritten hsave hwithin)]
      rfl
    exact ⟨hfile, by rw [Settings.load, hfile]; rfl⟩

/-- Sections within each other; one of them lacks a key of the defaults. -/
def layered : Settings :=
  ⟨[(.text "solver", .table [(.text "check_finite", .truth false)]),
    (.text "a", .table [(.text "b", .table [(.text "c", .null)])])]⟩

theorem written_layered : Yaml.writeShared (.table layered.entries) [] =
    "solver:\n  check_finite: false\na:\n  b:\n    c: null\n" := by
  cbv

theorem read_layered : Yaml.read "solver:\n  check_finite: false\na:\n  b:\n    c: null\n" =
    .ok (.table layered.entries) := by
  cbv

/-- Settings with sections within each other are saved and come back; over the defaults they are not
the same, as their first section lacks a key. -/
theorem save_load_layered :
    (of layered).settings = layered ∧ layered.entries.IsTree Atom.isText ∧
    layered.entries.find? (.text "_base_") = none ∧
    Yaml.read (Yaml.writeShared (.table layered.entries) []) = .ok (.table layered.entries) ∧
    ∃ saved, (of layered).save .empty ⟨"", ["out", "config.yaml"]⟩ = .ok saved ∧
      saved.spotOf ⟨"", ["out", "config.yaml"]⟩ = .ok (.within ["out", "config.yaml"]) ∧
      Settings.ofFile saved ⟨"", ["out", "config.yaml"]⟩ = .ok layered ∧
      Settings.load saved ⟨"", ["out", "config.yaml"]⟩ = .ok (Settings.defaults.merge layered) ∧
      ¬ (Settings.defaults.merge layered).entries.Reordered layered.entries := by
  have hsettings : (of layered).settings = layered := (LiveSettings.apart_of layered).2
  have hread : Yaml.read (Yaml.writeShared (.table layered.entries) []) =
      .ok (.table layered.entries) := by
    rw [written_layered, read_layered]
  have hwritten : (of layered).written =
      "solver:\n  check_finite: false\na:\n  b:\n    c: null\n" := by
    rw [written, hsettings]
    exact written_layered
  have hsave : (of layered).save .empty ⟨"", ["out", "config.yaml"]⟩ =
      .ok (.folder [("out", .folder [("config.yaml", .file (.text
        "solver:\n  check_finite: false\na:\n  b:\n    c: null\n"))])]) := by
    rw [save, hwritten]
    rfl
  have hlaws := save_load (of layered)
  rw [hsettings] at hlaws
  obtain ⟨-, hloaded, hcovers⟩ := hlaws (by decide) (by decide) hread
  obtain ⟨hfile, hload⟩ := hloaded _ _ _ ["out", "config.yaml"] hsave rfl
  refine ⟨hsettings, by decide, by decide, hread, _, hsave, rfl, hfile, hload, fun hsame => ?_⟩
  have hkeys := hcovers.mp hsame [.text "solver"] _ _ rfl rfl
  simp at hkeys

end Desk

end OptimalAssignment
