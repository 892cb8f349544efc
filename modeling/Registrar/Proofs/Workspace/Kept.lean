import Registrar.Proofs.Disk.Normal
import Registrar.Proofs.Workspace.Sources

/-!
The sources after a change of the disk. Every source stands at a place below that of the root, and a
source that stands where a change has spared nothing was a source before, at the same place.
-/

namespace Registrar

open Folder

/-- Below a folder a path leads on by the names that lead to something in the folder. -/
theorem Disk.locate_descend {d : Disk} {p : Path} {inside : Folder} {here names : List String}
    {item : Item} (led : d.locate p = .ok here) (at_ : d.top.at? here = some (.folder inside))
    (found : inside.at? names = some item) (proper : ∀ n ∈ names, IsEntryName n) :
    d.locate (p.descend names) = .ok (here ++ names) := by
  induction names generalizing p here inside with
  | nil => simpa using led
  | cons n rest ih =>
    obtain ⟨entry, proper⟩ := List.forall_mem_cons.mp proper
    have led' := locate_child led at_ entry
    rw [Path.descend_cons]
    rw [at?] at found
    split at found
    · next below there =>
      have at_' : d.top.at? (here ++ [n]) = some (.folder below) := by
        rw [at?_concat n at_, there]
      simpa using ih led' at_' found proper
    · cases rest with
      | nil => exact led'
      | cons m rest => simp at found
    · simp at found

namespace Workspace

variable {w w' : Workspace} {here names : List String} {f : Path}

/-- The sources below a root, by the places at which they stand. -/
theorem mem_sources_iff_shape (proper : w.disk.top.Proper) (led : w.disk.locate w.root = .ok here)
    (folder : w.disk.top.shape here = some none) : f ∈ w.sources ↔ ∃ names,
      (∃ file, w.disk.top.shape (here ++ names) = some (some file)) ∧ w.config.Shows w.root names ∧
        names.getLast?.any w.config.isSource = true ∧ f = w.root.descend names := by
  obtain ⟨inside, at_⟩ := shape_eq_folder_iff.mp folder
  rw [mem_sources_iff proper (Disk.find_eq_ok_iff_locate.mpr ⟨here, led, at_⟩)]
  simp only [HasSource, shape_append at_, shape_eq_file_iff, and_assoc]

/-- A source stands where the names lead from the place of the root. -/
theorem locate_descend_root (proper : w.disk.top.Proper) (led : w.disk.locate w.root = .ok here)
    {file : File} (there : w.disk.top.shape (here ++ names) = some (some file)) :
    w.disk.locate (w.root.descend names) = .ok (here ++ names) := by
  have at_ := shape_eq_file_iff.mp there
  by_cases none_ : names = []
  · subst none_
    simpa using led
  · obtain ⟨inside, folder⟩ := shape_eq_folder_iff.mp (shape_of_append there none_)
    rw [at?_append names folder] at at_
    exact Disk.locate_descend led folder at_ ((proper.of_at? folder).entries_of_at? at_)

/-- A source below an absolute root has an absolute path. -/
theorem isAbsolute_of_mem_sources (proper : w.disk.top.Proper) (folder : w.disk.isFolder w.root = true)
    (absolute : w.root.isAbsolute = true) (member : f ∈ w.sources) : f.isAbsolute = true := by
  obtain ⟨here, led, folder⟩ := Disk.isFolder_iff.mp folder
  obtain ⟨inside, at_⟩ := shape_eq_folder_iff.mp folder
  obtain ⟨_, started, _⟩ := Disk.locate_eq_ok_iff.mp led
  obtain ⟨names, source, rfl⟩ :=
    (mem_sources_iff proper (Disk.find_eq_ok_iff_locate.mpr ⟨here, led, at_⟩)).mp member
  obtain ⟨g, found⟩ := source.1
  have written := Disk.ne_nil_of_start started
  have entries := (proper.of_at? at_).entries_of_at? found
  clear led at_ source member found folder started
  generalize w.root = p at absolute written
  induction names generalizing p with
  | nil => exact absolute
  | cons n rest ih =>
    obtain ⟨entry, entries⟩ := List.forall_mem_cons.mp entries
    obtain ⟨same, _⟩ := Path.pieces_child written entry
    obtain ⟨_, _, text⟩ := Path.text_child written
    exact ih entries _ (same.trans absolute) (by simp [text entry])

/-- A source after a change stands somewhere, and was a source before if a file stood there. -/
theorem exists_of_mem_sources {spared : List String → Prop} (sound : w.disk.top.Sound)
    (agrees : Disk.Agrees spared w.disk w'.disk) (root : w'.root = w.root)
    (settings : w'.config = w.config) (folder : w.disk.isFolder w.root = true)
    (member : f ∈ w'.sources) : ∃ ns file, w'.disk.locate f = .ok ns ∧
      w'.disk.top.shape ns = some (some file) ∧
        ∀ g, w.disk.top.shape ns = some (some g) → f ∈ w.sources ∧ w.disk.locate f = .ok ns := by
  obtain ⟨here, led, folder⟩ := Disk.isFolder_iff.mp folder
  have led' : w'.disk.locate w'.root = .ok here := by
    rw [root]
    exact agrees.locate led
  obtain ⟨names, ⟨file, there⟩, shown, source, rfl⟩ :=
    (mem_sources_iff_shape (agrees.sound sound).proper led' (agrees.folders here folder)).mp member
  refine ⟨here ++ names, file, locate_descend_root (agrees.sound sound).proper led' there, there,
    fun g before_ => ?_⟩
  rw [root, settings] at shown
  rw [settings] at source
  rw [root]
  exact ⟨(mem_sources_iff_shape sound.proper led folder).mpr ⟨names, ⟨g, before_⟩, shown, source, rfl⟩,
    locate_descend_root sound.proper led before_⟩

/-- Two different sources lie in a root that is a folder. -/
theorem isFolder_of_mem_sources {g : Path} (member : f ∈ w.sources) (member' : g ∈ w.sources)
    (different : f ≠ g) : w.disk.isFolder w.root = true := by
  rw [sources] at member member'
  split at member
  · next inside found => rw [Disk.isFolder, found]
  · next file found =>
    rw [found] at member'
    simp only at member'
    split at member
    · next isSource =>
      rw [if_pos isSource] at member'
      exact absurd ((List.mem_singleton.mp member).trans (List.mem_singleton.mp member').symm) different
    · simp at member
  · simp at member

/-- Writing a file anew leaves the sources as they are. -/
theorem mem_sources_iff_of_rewritten {d : Disk} {new old : File} (sound : w.disk.top.Sound)
    (folder : w.disk.isFolder w.root = true)
    (alters : w.disk.Alters d names (some (some new)))
    (there : w.disk.top.shape names = some (some old)) :
    f ∈ { w with disk := d }.sources ↔ f ∈ w.sources := by
  obtain ⟨here, led, folder⟩ := Disk.isFolder_iff.mp folder
  have files : ∀ ns, (∃ file, d.top.shape ns = some (some file)) ↔
      ∃ file, w.disk.top.shape ns = some (some file) := by
    intro ns
    rw [alters.shape]
    split
    · next at_ => simp [at_, there]
    · rfl
  rw [mem_sources_iff_shape sound.proper led folder, mem_sources_iff_shape (w := { w with disk := d })
    (alters.sound sound).proper (alters.grows.locate led) (alters.grows.folders here folder)]
  simp only [files]

end Workspace
end Registrar
