import Registrar.Proofs.Disk.Shape
import Registrar.Proofs.Workspace.Coverage
import Registrar.Proofs.Workspace.Nested

/-!
What the walk lists: every visible source once, depth first with the entries of each folder by their
names, and nothing else. Every source is then a registry or a helper, never both, but for those that
hold no text and do not sound like a registry.
-/

namespace Registrar

/-- Two ways part at a folder, and the first goes on there by the name that comes first. -/
def Path.Precedes (names others : List String) : Prop :=
  ∃ front n m more more', names = front ++ n :: more ∧ others = front ++ m :: more' ∧ n < m

/-- No step of a walk to this entry is kept back: it is not hidden, not foreign and not excluded. -/
structure Config.Admits (config : Config) (entry : Path) (name : String) : Prop where
  shown : name.toList.head? ≠ some '.'
  own : name ≠ config.dependencyDir
  kept : ∀ pattern ∈ config.exclude, ∀ glob, Glob.read pattern.toList = .ok glob →
    glob.accepts entry.text.toList = false

/-- The names lead from the root to a file with the name of a source, past entries that are all
admitted; no names lead to the root itself. -/
structure Workspace.Visible (w : Workspace) (names : List String) : Prop where
  rooted : w.disk.holds w.root = true
  entries : ∀ n ∈ names, IsEntryName n
  file : w.disk.isFile (w.root.descend names) = true
  admitted : ∀ front name, front ++ [name] <+: names →
    w.config.Admits (w.root.descend (front ++ [name])) name
  source : ∃ name, (w.root.descend names).fileName? = some name ∧
    w.config.sourceExtension.toList <:+ name.toList

namespace Path

theorem Precedes.cons {names others : List String} (n : String) (before : Precedes names others) :
    Precedes (n :: names) (n :: others) := by
  obtain ⟨front, m, m', more, more', rfl, rfl, less⟩ := before
  exact ⟨n :: front, m, m', more, more', rfl, rfl, less⟩

theorem precedes_of_lt {n m : String} (less : n < m) (more more' : List String) :
    Precedes (n :: more) (m :: more') := ⟨[], n, m, more, more', rfl, rfl, less⟩

/-- The path of an entry has the entry's name. -/
theorem fileName?_child {p : Path} {name : String} (written : p.text.toList ≠ [])
    (proper : IsEntryName name) : (p.child name).fileName? = some name := by
  obtain ⟨absolute, kept, _, pieces⟩ := pieces_child written proper
  have last : ∀ steps : List Component,
      (steps ++ (kept ++ [name.toList]).filterMap component?).getLast? = some (.name name) := by
    intro steps
    rw [List.filterMap_append, ← List.append_assoc]
    simp [proper.step]
  have ends : (p.child name).components.getLast? = some (.name name) := by
    unfold components
    rw [pieces]
    split
    · exact last [.top]
    · split
      · exact last [.here]
      · exact last []
  rw [fileName?, ends]

theorem fileName?_descend {p : Path} {names : List String} {name : String}
    (written : p.text.toList ≠ []) (proper : ∀ n ∈ names ++ [name], IsEntryName n) :
    (p.descend (names ++ [name])).fileName? = some name := by
  rw [descend_append]
  refine fileName?_child (written_descend written fun n member => ?_) (proper name (by simp))
  exact proper n (List.mem_append_left _ member)

end Path

namespace Config

variable {config : Config} {here entry : Path} {name : String} {names : List String}

theorem admits_iff : config.Admits entry name ↔ config.skips entry name = false := by
  have globs : config.excludes entry.text = false ↔ ∀ pattern ∈ config.exclude, ∀ glob,
      Glob.read pattern.toList = .ok glob → glob.accepts entry.text.toList = false := by
    rw [excludes, excludeGlobs, List.any_eq_false]
    constructor
    · intro none_ pattern member glob read
      have inside := none_ glob (List.mem_filterMap.mpr ⟨pattern, member, by rw [read]; rfl⟩)
      simpa using inside
    · intro none_ glob member
      obtain ⟨pattern, listed, read⟩ := List.mem_filterMap.mp member
      cases parsed : Glob.read pattern.toList with
      | error fault => simp [parsed, Except.toOption] at read
      | ok g =>
        obtain rfl : g = glob := by simpa [parsed, Except.toOption] using read
        simpa using none_ pattern listed g parsed
  constructor
  · rintro ⟨shown, own, kept⟩
    rw [skips, globs.mpr kept]
    simp [shown, own]
  · intro shown
    simp only [skips, Bool.or_eq_false_iff, beq_eq_false_iff_ne] at shown
    exact ⟨shown.1.1, shown.1.2, globs.mp shown.2⟩

/-- What the walk shows on the way is every entry that the way leads through. -/
theorem shows_iff : config.Shows here names ↔ ∀ front name, front ++ [name] <+: names →
    config.Admits (here.descend (front ++ [name])) name := by
  induction names generalizing here with
  | nil => simp [Shows]
  | cons first rest ih =>
    rw [Shows, ih, ← admits_iff]
    constructor
    · rintro ⟨shown, below⟩ front name way
      cases front with
      | nil =>
        obtain rfl : name = first := by simpa using way
        exact shown
      | cons n front =>
        rw [List.cons_append, List.cons_prefix_cons] at way
        obtain ⟨rfl, way⟩ := way
        exact below front name way
    · intro shown
      refine ⟨shown [] first ⟨rest, rfl⟩, fun front name way => ?_⟩
      exact shown (first :: front) name (List.cons_prefix_cons.mpr ⟨rfl, way⟩)

theorem isSource_iff : config.isSource name = true ↔
    config.sourceExtension.toList <:+ name.toList := by
  rw [isSource, Text.finishesWith, List.isSuffixOf_iff_suffix]

end Config

namespace Folder

variable {config : Config} {d : Folder} {here : Path} {names : List String}

/-- A way to a source begins with an entry of the folder. -/
theorem HasSource.exists_entry (source : d.HasSource config here names) :
    ∃ n more, names = n :: more ∧ (d.find? n).isSome := by
  obtain ⟨n, more, rfl⟩ := List.exists_cons_of_ne_nil source.ne_nil
  refine ⟨n, more, rfl, ?_⟩
  obtain ⟨⟨f, at_⟩, -⟩ := source
  cases entry : d.find? n with
  | none => simp [at?, entry] at at_
  | some item => rfl

/-- The paths are those of ways to sources, and stand in the order of the ways. -/
def ListsInOrder (config : Config) (here : Path) (d : Folder) (paths : List Path)
    (found : List (List String)) : Prop :=
  paths = found.map here.descend ∧ found.Pairwise Path.Precedes ∧
    ∀ names ∈ found, d.HasSource config here names

/-- The sources at an entry stand in order before those at the entries that follow it. -/
theorem ListsInOrder.append {rest : Folder} {n : String} {first later : List Path}
    {ways found : List (List String)} (after_ : ∀ m, (rest.find? m).isSome → n < m)
    (entries : ∀ m, m ≠ n → d.find? m = rest.find? m)
    (inFirst : d.ListsInOrder config here first ways) (at_ : ∀ names ∈ ways, names.head? = some n)
    (inLater : rest.ListsInOrder config here later found) :
    d.ListsInOrder config here (first ++ later) (ways ++ found) := by
  obtain ⟨rfl, increasing, source⟩ := inFirst
  obtain ⟨rfl, increasing', source'⟩ := inLater
  refine ⟨(List.map_append ..).symm, ?_, fun names member => ?_⟩
  · refine List.pairwise_append.mpr ⟨increasing, increasing', fun names member others member' => ?_⟩
    obtain ⟨m, more, rfl, there⟩ := (source' others member').exists_entry
    obtain ⟨tail, rfl⟩ := List.head?_eq_some_iff.mp (at_ names member)
    exact Path.precedes_of_lt (after_ m there) tail more
  · rcases List.mem_append.mp member with member | member
    · exact source names member
    · have new := find?_eq_none_of_lt after_
      exact ((hasSource_rest config here new entries names).mp (source' names member)).1

/-- The sources of a tree stand in the order of the ways that lead to them. -/
theorem exists_listsInOrder (config : Config) (here : Path) (ordered : d.Ordered) :
    ∃ found, d.ListsInOrder config here (d.sources config here) found := by
  induction d generalizing here with
  | empty => exact ⟨[], rfl, .nil, by simp⟩
  | file n f rest ih =>
    obtain ⟨after_, ordered⟩ := ordered
    obtain ⟨found, inLater⟩ := ih here ordered
    have entries : ∀ m, m ≠ n → (Folder.file n f rest).find? m = rest.find? m := by
      intro m other
      simp [find?, Ne.symm other]
    by_cases shown : (!config.skips (here.child n) n && config.isSource n) = true
    · have source : (Folder.file n f rest).HasSource config here [n] := by
        simpa [HasSource, at?, find?, Config.Shows] using shown
      have inFirst : (Folder.file n f rest).ListsInOrder config here [here.child n] [[n]] :=
        ⟨rfl, List.pairwise_singleton .., by simpa using source⟩
      refine ⟨[[n]] ++ found, ?_⟩
      rw [sources, if_pos shown]
      exact inFirst.append after_ entries (by simp) inLater
    · have inFirst : (Folder.file n f rest).ListsInOrder config here [] [] := ⟨rfl, .nil, by simp⟩
      refine ⟨[] ++ found, ?_⟩
      rw [sources, if_neg shown]
      exact inFirst.append after_ entries (by simp) inLater
  | folder n inside rest ih ih' =>
    obtain ⟨after_, orderedInside, ordered⟩ := ordered
    obtain ⟨found, inLater⟩ := ih' here ordered
    have entries : ∀ m, m ≠ n → (Folder.folder n inside rest).find? m = rest.find? m := by
      intro m other
      simp [find?, Ne.symm other]
    by_cases pruned : config.skips (here.child n) n = true
    · have inFirst : (Folder.folder n inside rest).ListsInOrder config here [] [] :=
        ⟨rfl, .nil, by simp⟩
      refine ⟨[] ++ found, ?_⟩
      rw [sources, if_pos pruned]
      exact inFirst.append after_ entries (by simp) inLater
    · obtain ⟨below, same, increasing, source⟩ := ih (here.child n) orderedInside
      have shown : config.skips (here.child n) n = false := by simpa using pruned
      have inFirst : (Folder.folder n inside rest).ListsInOrder config here
          (inside.sources config (here.child n)) (below.map (n :: ·)) := by
        refine ⟨?_, ?_, ?_⟩
        · rw [same, List.map_map]
          rfl
        · exact List.pairwise_map.mpr (increasing.imp fun before => before.cons n)
        · intro names member
          obtain ⟨more, inside', rfl⟩ := List.mem_map.mp member
          obtain ⟨⟨f, at_⟩, showsBelow, named⟩ := source more inside'
          obtain ⟨m, tail, rfl⟩ := List.exists_cons_of_ne_nil (source more inside').ne_nil
          refine ⟨⟨f, ?_⟩, ⟨shown, showsBelow⟩, by simpa using named⟩
          rw [at?, find?, if_pos (beq_self_eq_true n)]
          exact at_
      refine ⟨below.map (n :: ·) ++ found, ?_⟩
      rw [sources, if_neg pruned]
      exact inFirst.append after_ entries (by simp) inLater

end Folder

namespace Workspace

variable {w : Workspace} {names : List String} {p : Path}

theorem written_root {item : Item} (found : w.disk.find w.root = .ok item) :
    w.root.text.toList ≠ [] := by
  obtain ⟨here, names, started, -⟩ := Disk.find_eq_ok_iff.mp found
  exact Disk.ne_nil_of_start started

theorem isFile_iff_find {d : Disk} : d.isFile p = true ↔ ∃ f, d.find p = .ok (.file f) := by
  unfold Disk.isFile
  split
  · next f found => exact ⟨fun _ => ⟨f, found⟩, fun _ => rfl⟩
  · next other => simpa using fun f => other f

/-- Below a root that is a folder, the visible ways are those to the sources in the folder. -/
theorem visible_iff_of_folder {inside : Folder} (proper : w.disk.top.Proper)
    (found : w.disk.find w.root = .ok (.folder inside)) :
    w.Visible names ↔ inside.HasSource w.config w.root names := by
  have written := written_root found
  obtain ⟨top, led, at_root⟩ := Disk.find_eq_ok_iff_locate.mp found
  have below : inside.Proper := proper.of_at? at_root
  constructor
  · rintro ⟨rooted, entries, file, admitted, name, named, ends⟩
    obtain ⟨f, there⟩ := isFile_iff_find.mp file
    have filled : names ≠ [] := by
      rintro rfl
      simp [found] at there
    obtain ⟨inside', found', at_⟩ := (Disk.find_descend_iff written entries filled).mp there
    obtain rfl : inside = inside' := by simpa [found] using found'
    refine ⟨⟨f, at_⟩, Config.shows_iff.mpr admitted, ?_⟩
    obtain ⟨front, last, rfl⟩ := List.eq_nil_or_concat' names |>.resolve_left filled
    rw [Path.fileName?_descend written entries, Option.some.injEq] at named
    subst named
    simpa using Config.isSource_iff.mpr ends
  · intro source
    obtain ⟨front, last, rfl⟩ := List.eq_nil_or_concat' names |>.resolve_left source.ne_nil
    obtain ⟨⟨f, at_⟩, shown, named⟩ := source
    have entries := below.entries_of_at? at_
    refine ⟨by rw [Disk.holds, found]; rfl, entries, ?_, Config.shows_iff.mp shown, last, ?_, ?_⟩
    · exact isFile_iff_find.mpr ⟨f, (Disk.find_descend_iff written entries (by simp)).mpr
        ⟨inside, found, at_⟩⟩
    · exact Path.fileName?_descend written entries
    · exact Config.isSource_iff.mp (by simpa using named)

/-- At a root that is a file, the file is all there is. -/
theorem visible_iff_of_file {f : File} (found : w.disk.find w.root = .ok (.file f)) :
    w.Visible names ↔ names = [] ∧ w.root.fileName?.any w.config.isSource = true := by
  have written := written_root found
  constructor
  · rintro ⟨rooted, entries, file, admitted, name, named, ends⟩
    obtain ⟨g, there⟩ := isFile_iff_find.mp file
    by_cases filled : names = []
    · subst filled
      rw [Path.descend_nil] at named
      exact ⟨rfl, by simpa [named] using Config.isSource_iff.mpr ends⟩
    · obtain ⟨inside, folder, -⟩ := (Disk.find_descend_iff written entries filled).mp there
      simp [found] at folder
  · rintro ⟨rfl, named⟩
    obtain ⟨name, named, source⟩ := (Option.any_eq_true ..).mp named
    refine ⟨by rw [Disk.holds, found]; rfl, by simp, isFile_iff_find.mpr ⟨f, found⟩, ?_, name, named, ?_⟩
    · intro front name way
      simp at way
    · exact Config.isSource_iff.mp source

/-- The files of the helpers are the sources of that kind. -/
theorem map_file_helperFiles (w : Workspace) : w.helperFiles.map HelperFile.file =
    w.sources.filter fun p => w.kind p != .registry && w.kind p != .unreadable := by
  rw [helperFiles, List.map_filterMap, ← List.filterMap_eq_filter]
  refine List.filterMap_congr fun p _ => ?_
  cases kind : w.kind p <;> simp [Option.guard, kind]

/-- Only what is no text and does not sound like a registry is of no use. -/
theorem kind_eq_unreadable_iff : w.kind p = .unreadable ↔
    w.disk.readText? p = none ∧ p.soundsLikeRegistry = false := by
  unfold kind
  cases read : w.disk.readText? p with
  | none => cases p.soundsLikeRegistry <;> simp
  | some text =>
    have readable : kindOf w.config p text ≠ .unreadable := by
      unfold kindOf
      split
      · simp
      · split <;> simp
    simpa using readable

/-- The sources are those at the visible ways, in the order of the ways. -/
theorem exists_visible (sound : w.disk.top.Sound) : ∃ found : List (List String),
    w.sources = found.map w.root.descend ∧ found.Pairwise Path.Precedes ∧
      ∀ names, names ∈ found ↔ w.Visible names := by
  cases there : w.disk.find w.root with
  | error why =>
    have absent : w.disk.holds w.root = false := by rw [Disk.holds, there]; rfl
    refine ⟨[], by rw [sources, there]; rfl, .nil, fun names => ?_⟩
    exact ⟨by simp, fun visible => absurd visible.rooted (by simp [absent])⟩
  | ok item =>
    cases item with
    | file f =>
      by_cases named : w.root.fileName?.any w.config.isSource = true
      · refine ⟨[[]], ?_, List.pairwise_singleton .., fun names => ?_⟩
        · rw [sources, there]
          exact if_pos named
        · rw [visible_iff_of_file there]
          simp [named]
      · refine ⟨[], ?_, .nil, fun names => ?_⟩
        · rw [sources, there]
          exact if_neg named
        · rw [visible_iff_of_file there]
          simp [named]
    | folder inside =>
      obtain ⟨top, led, at_⟩ := Disk.find_eq_ok_iff_locate.mp there
      have below := sound.of_at? at_
      have written := written_root there
      obtain ⟨found, listed, increasing, source⟩ :=
        Folder.exists_listsInOrder w.config w.root below.ordered
      refine ⟨found, by rw [sources, there]; exact listed, increasing, fun names => ?_⟩
      rw [visible_iff_of_folder sound.proper there]
      refine ⟨source names, fun visible => ?_⟩
      -- A visible way is one of those listed, since no other way leads to its path.
      have member := (Folder.mem_sources_iff below.proper).mpr ⟨names, visible, rfl⟩
      rw [listed] at member
      obtain ⟨others, inside', same⟩ := List.mem_map.mp member
      obtain ⟨⟨f, at_⟩, -⟩ := id visible
      obtain ⟨⟨g, at_'⟩, -⟩ := source others inside'
      have equal := Path.descend_inj written (source others inside').ne_nil visible.ne_nil
        (below.proper.entries_of_at? at_') (below.proper.entries_of_at? at_) same
      exact equal ▸ inside'

/-- The walk lists the visible sources, each of them once and in the order of the ways that lead to
them. Registries and helpers are picked from it in its order, no file as both, and only what is no
text and does not sound like a registry is picked as neither. -/
theorem exists_walk (sound : w.disk.top.Sound) :
    (∃ found : List (List String), w.sources = found.map w.root.descend ∧
      found.Pairwise Path.Precedes ∧ ∀ names, names ∈ found ↔ w.Visible names) ∧
    w.sources.Nodup ∧
    w.registries.Sublist w.sources ∧ (w.helperFiles.map HelperFile.file).Sublist w.sources ∧
    w.registries.Disjoint (w.helperFiles.map HelperFile.file) ∧
    ∀ p ∈ w.sources, (p ∉ w.registries ∧ p ∉ w.helperFiles.map HelperFile.file) ↔
      w.disk.readText? p = none ∧ p.soundsLikeRegistry = false := by
  rw [map_file_helperFiles]
  refine ⟨exists_visible sound, nodup_sources sound.proper, List.filter_sublist,
    List.filter_sublist, ?_, fun p source => ?_⟩
  · intro p registry helper
    have is := (List.mem_filter.mp registry).2
    have other := (List.mem_filter.mp helper).2
    rw [isRegistry, beq_iff_eq] at is
    simp [is] at other
  · rw [← kind_eq_unreadable_iff, registries, List.mem_filter, List.mem_filter, isRegistry]
    cases w.kind p <;> simp [source]

/-- Beside a hidden file and an excluded folder the walk lists the file in the folder `a`, and then
one that is no text, which is of no use. -/
theorem exists_walk_mixed :
    let text : File := ⟨.text "class A {}".toList, 0⟩
    let below : Folder := Folder.empty.put "c.ts" (.file text)
    let hidden : Folder := Folder.empty.put ".b.ts" (.file text)
    let inside : Folder := ((hidden.put "gen" (.folder below)).put "a.ts"
      (.file ⟨.bytes [255], 0⟩)).put "a" (.folder below)
    let w : Workspace := ⟨⟨Folder.empty.put "w" (.folder inside), none, 1⟩, ⟨"/w"⟩,
      { exclude := ["/w/gen"] }⟩
    w.disk.top.Sound ∧ w.sources = [⟨"/w/a/c.ts"⟩, ⟨"/w/a.ts"⟩] ∧ w.sources.Nodup ∧
      ⟨"/w/a.ts"⟩ ∉ w.registries ∧ ⟨"/w/a.ts"⟩ ∉ w.helperFiles.map HelperFile.file := by
  intro text below hidden inside w
  have sound : w.disk.top.Sound := by
    have lowest : below.Sound := Folder.sound_empty.put (by decide) (by simp)
    have first : hidden.Sound := Folder.sound_empty.put (by decide) (by simp)
    have middle : inside.Sound := ((first.put (by decide) (by simpa using lowest)).put (by decide)
      (by simp)).put (by decide) (by simpa using lowest)
    have top : (Folder.empty.put "w" (.folder inside)).Sound :=
      Folder.sound_empty.put (by decide) (by simpa using middle)
    exact top
  have listed : w.sources = [⟨"/w/a/c.ts"⟩, ⟨"/w/a.ts"⟩] := by decide +kernel
  obtain ⟨-, nodup, -, -, -, useless⟩ := exists_walk sound
  exact ⟨sound, listed, nodup, (useless ⟨"/w/a.ts"⟩ (by simp [listed])).mpr (by decide +kernel)⟩

end Workspace

end Registrar
