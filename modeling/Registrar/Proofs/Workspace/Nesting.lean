import Registrar.Proofs.Workspace.Sources
import Registrar.Workspace.Nesting

/-!
Nesting against the walk. A registry that is reported around a folder is one that the walk from the
boundary finds, unless its own name, or that of the folder below the candidate that it lies in, is
one that the walk leaves out: these names alone the report does not look at.
-/

namespace Registrar

namespace Folder

theorem find?_of_mem_files {d : Folder} (proper : d.Proper) {name : String}
    (member : name ∈ d.files) : ∃ f, d.find? name = some (.file f) := by
  induction d with
  | empty => simp [files] at member
  | file n f rest ih =>
    rcases List.mem_cons.mp member with rfl | member
    · exact ⟨f, by simp [find?]⟩
    · obtain ⟨g, found⟩ := ih proper.2.2 member
      have other : n ≠ name := fun same => by simp [← same, proper.2.1] at found
      exact ⟨g, by simpa [find?, other] using found⟩
  | folder n inside rest _ ih =>
    obtain ⟨g, found⟩ := ih proper.2.2.2 member
    have other : n ≠ name := fun same => by simp [← same, proper.2.1] at found
    exact ⟨g, by simpa [find?, other] using found⟩

/-- A deeper source is a source of one of the folders. -/
theorem exists_of_mem_deeperSources {config : Config} {here p : Path} {d : Folder}
    (proper : d.Proper) (member : p ∈ d.deeperSources config here) :
    ∃ name inside, d.find? name = some (.folder inside) ∧
      p ∈ inside.sources config (here.child name) := by
  induction d with
  | empty => simp [deeperSources] at member
  | file n f rest ih =>
    obtain ⟨name, inside, found, member⟩ := ih proper.2.2 member
    have other : n ≠ name := fun same => by simp [← same, proper.2.1] at found
    exact ⟨name, inside, by simpa [find?, other] using found, member⟩
  | folder n inside rest _ ih =>
    rcases List.mem_append.mp member with member | member
    · exact ⟨n, inside, by simp [find?], member⟩
    · obtain ⟨name, inner, found, member⟩ := ih proper.2.2.2 member
      have other : n ≠ name := fun same => by simp [← same, proper.2.1] at found
      exact ⟨name, inner, by simpa [find?, other] using found, member⟩

end Folder

namespace Workspace

variable {w : Workspace} {boundary : Path} {way : List String}

/-- Going up from a folder to the boundary passes only the folders on the way down. -/
theorem exists_of_mem_upTo (trimmed : boundary.IsTrimmed)
    (entries : ∀ name ∈ way, IsEntryName name) (fuel : Nat) {folder : Path}
    (member : folder ∈ upTo (some boundary) (Path.ancestorsUpTo fuel (boundary.descend way))) :
    ∃ upper, upper <+: way ∧ folder = boundary.descend upper := by
  induction way using List.reverseRecOn generalizing fuel with
  | nil =>
    have itself : boundary.same boundary = true := by simp [Path.same]
    refine ⟨[], List.prefix_refl _, ?_⟩
    cases fuel with
    | zero => simpa [Path.ancestorsUpTo, upTo, itself] using member
    | succ fuel =>
      rw [Path.descend_nil, Path.ancestorsUpTo] at member
      split at member <;> simpa [upTo, itself] using member
  | append_singleton upper name ih =>
    have entries' : ∀ name ∈ upper, IsEntryName name := fun n inside =>
      entries n (List.mem_append_left _ inside)
    have parent : (boundary.descend (upper ++ [name])).parent? = some (boundary.descend upper) := by
      rw [Path.descend_append]
      exact Path.parent?_child (trimmed.descend entries') (entries name (by simp))
    cases fuel with
    | zero =>
      refine ⟨_, List.prefix_refl _, ?_⟩
      rw [Path.ancestorsUpTo, upTo] at member
      split at member <;> simpa [upTo] using member
    | succ fuel =>
      rw [Path.ancestorsUpTo, parent, upTo] at member
      split at member
      · exact ⟨_, List.prefix_refl _, by simpa using member⟩
      · rcases List.mem_cons.mp member with rfl | member
        · exact ⟨_, List.prefix_refl _, rfl⟩
        · obtain ⟨upper', before, rfl⟩ := ih entries' fuel member
          exact ⟨upper', before.trans (List.prefix_append _ _), rfl⟩

/-- A registry that stands directly in a folder is a source file there. -/
theorem exists_of_mem_registriesIn (proper : w.disk.top.Proper) {folder p : Path}
    (member : p ∈ w.registriesIn folder) : ∃ inside name f,
      w.disk.find folder = .ok (.folder inside) ∧ inside.find? name = some (.file f) ∧
        p = folder.child name ∧ w.config.isSource name = true ∧ w.isRegistry p = true := by
  rw [registriesIn] at member
  split at member
  · next inside found =>
    obtain ⟨_, _, _, _, at_⟩ := Disk.find_eq_ok_iff.mp found
    obtain ⟨listed, registry⟩ := List.mem_filter.mp ((sorted_perm _ _).mem_iff.mp member)
    obtain ⟨name, kept, rfl⟩ := List.mem_map.mp listed
    obtain ⟨file, source⟩ := List.mem_filter.mp kept
    obtain ⟨f, entry⟩ := Folder.find?_of_mem_files (proper.of_at? at_) file
    exact ⟨inside, name, f, found, entry, rfl, source, registry⟩
  · simp at member

/-- What is reported around a folder that the walk reaches: a registry in a folder on the way is
found by the walk from the boundary exactly when its own name is not left out, and a registry
further down exactly when the folder that it lies in below the candidate is not. -/
theorem mem_registries_iff_of_nesting (w : Workspace) (proper : w.disk.top.Proper)
    (trimmed : boundary.IsTrimmed) (entries : ∀ name ∈ way, IsEntryName name)
    (shown : w.config.Shows boundary way) :
    let candidate := boundary.descend way
    let scanned := { w with root := boundary }.registries
    (∀ p ∈ (w.nesting candidate (some boundary)).above, ∃ upper name,
      upper <+: way ∧ IsEntryName name ∧ p = (boundary.descend upper).child name ∧
        (p ∈ scanned ↔ w.config.skips p name = false)) ∧
    ∀ p ∈ (w.nesting candidate (some boundary)).below, ∃ name more,
      (∀ n ∈ name :: more, IsEntryName n) ∧ p = candidate.descend (name :: more) ∧
        (p ∈ scanned ↔ w.config.skips (candidate.child name) name = false) := by
  intro candidate scanned
  have listed : ∀ {p}, w.isRegistry p = true →
      (p ∈ scanned ↔ p ∈ { w with root := boundary }.sources) := by
    intro p registry
    exact List.mem_filter.trans (and_iff_left registry)
  constructor
  · intro p member
    obtain ⟨folder, inside, member⟩ := List.mem_flatMap.mp member
    obtain ⟨upper, before, rfl⟩ := exists_of_mem_upTo trimmed entries _ inside
    obtain ⟨inner, name, f, found, entry, rfl, source, registry⟩ :=
      exists_of_mem_registriesIn proper member
    have entries' : ∀ name ∈ upper, IsEntryName name := fun n inside =>
      entries n (before.subset inside)
    obtain ⟨top, start, at_⟩ := (Disk.find_descend_folder_iff trimmed.written entries').mp found
    have file : top.at? (upper ++ [name]) = some (.file f) := by
      rw [Folder.at?_concat name at_, entry]
    have path : (boundary.descend upper).child name = boundary.descend (upper ++ [name]) := by
      rw [Path.descend_append, Path.descend_cons, Path.descend_nil]
    obtain ⟨_, _, _, _, at_top⟩ := Disk.find_eq_ok_iff.mp start
    have entry' := (proper.of_at? at_top).entries_of_at? file name (by simp)
    refine ⟨upper, name, before, entry', rfl, (listed registry).trans ?_⟩
    rw [path, descend_mem_sources_iff (w := { w with root := boundary }) proper start file]
    obtain ⟨rest, rfl⟩ := before
    have shown' := (Config.shows_append.mp shown).1
    simp [Config.shows_append, Config.Shows, shown', source, path]
  · intro p member
    rw [nesting] at member
    split at member
    · next inner found =>
      obtain ⟨deep, registry⟩ := List.mem_filter.mp member
      obtain ⟨top, start, at_⟩ := (Disk.find_descend_folder_iff trimmed.written entries).mp found
      obtain ⟨_, _, _, _, at_top⟩ := Disk.find_eq_ok_iff.mp start
      have below := (proper.of_at? at_top).of_at? at_
      obtain ⟨name, deeper, entry, member⟩ := Folder.exists_of_mem_deeperSources below deep
      obtain ⟨more, source, rfl⟩ :=
        (Folder.mem_sources_iff ((below.of_find? entry).2 _ rfl)).mp member
      have filled := source.ne_nil
      obtain ⟨⟨f, at_deep⟩, shown', isSource⟩ := source
      have file : inner.at? (name :: more) = some (.file f) := by
        rwa [Folder.at?, entry]
      have file' : top.at? (way ++ name :: more) = some (.file f) := by
        rw [Folder.at?_append _ at_, file]
      have last : (way ++ name :: more).getLast? = more.getLast? := by
        rw [List.getLast?_append_of_ne_nil _ (List.cons_ne_nil _ _),
          List.getLast?_cons_of_ne_nil filled]
      refine ⟨name, more, below.entries_of_at? file, rfl, (listed registry).trans ?_⟩
      rw [← Path.descend_cons, ← Path.descend_append,
        descend_mem_sources_iff (w := { w with root := boundary }) proper start file',
        Config.shows_append, last]
      exact (and_iff_left isSource).trans ((and_iff_right shown).trans (and_iff_left shown'))
    · simp at member

/-- A registry in a foreign folder directly below the candidate is reported, though the walk from
the boundary does not find it. -/
theorem mem_registries_iff_of_nesting_foreign :
    let registry : Folder := .file "reg.ts" ⟨.text "private static instance: Site;".toList, 0⟩ .empty
    let w : Workspace :=
      ⟨{ top := .folder "w" (.folder "a" (.folder "node_modules" registry .empty) .empty) .empty },
        ⟨"/w"⟩, {}⟩
    ⟨"/w/a/node_modules/reg.ts"⟩ ∈ (w.nesting ⟨"/w/a"⟩ (some ⟨"/w"⟩)).below ∧
      ⟨"/w/a/node_modules/reg.ts"⟩ ∉ w.registries := by
  intro registry w
  have proper : w.disk.top.Proper := by
    refine ⟨⟨by decide +kernel, by decide +kernel⟩, rfl, ⟨⟨by decide +kernel, by decide +kernel⟩,
      rfl, ⟨⟨by decide +kernel, by decide +kernel⟩, rfl, ⟨⟨by decide +kernel, by decide +kernel⟩,
        rfl, trivial⟩, trivial⟩, trivial⟩, trivial⟩
  have reported : ⟨"/w/a/node_modules/reg.ts"⟩ ∈ (w.nesting ⟨"/w/a"⟩ (some ⟨"/w"⟩)).below := by
    decide +kernel
  refine ⟨reported, ?_⟩
  have trimmed : (⟨"/w"⟩ : Path).IsTrimmed := ⟨by decide, by decide +kernel⟩
  have way : ∀ name ∈ ["a"], IsEntryName name := by
    simpa using ⟨by decide +kernel, by decide +kernel⟩
  obtain ⟨name, more, entries, path, found⟩ := (w.mem_registries_iff_of_nesting proper trimmed way
    ⟨by decide +kernel, trivial⟩).2 _ reported
  have names : name :: more = ["node_modules", "reg.ts"] := by
    refine Path.descend_inj (p := ⟨"/w/a"⟩) (by decide) (by simp) (by simp) entries ?_
      (path.symm.trans (by decide +kernel))
    intro n member
    rcases List.mem_pair.mp member with rfl | rfl
    · exact ⟨by decide +kernel, by decide +kernel⟩
    · exact ⟨by decide +kernel, by decide +kernel⟩
  obtain ⟨rfl, rfl⟩ := List.cons.inj names
  exact fun member => absurd (found.mp member) (by decide +kernel)

end Workspace
end Registrar
