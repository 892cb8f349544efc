import Mathlib.Data.List.Nodup
import Registrar.Proofs.Specifier.Return
import Registrar.Proofs.Workspace.Kept
import Registrar.Proofs.Workspace.Nesting
import Registrar.Proofs.Workspace.Validated

/-!
The two notions of nesting. A validation compares the folders of all pairs of registries that the walk
from the root finds; around a folder, registries are looked for upward by listing and downward by a
walk. Every registry of the walk that lies on one line with a folder below the root is among those
that are reported around the folder.
-/

namespace Registrar

namespace Path

variable {dir names ms upper : List String} {n : String}

theorem child_ofNames (proper : ∀ m ∈ dir ++ [n], IsEntryName m) :
    (ofNames true dir).child n = ofNames true (dir ++ [n]) := by
  have entry := proper n (by simp)
  have folder : ∀ m ∈ dir, IsEntryName m := fun m member => proper m (by simp [member])
  have some_ : (ofNames true dir).text.toList ≠ [] := by simp [ofNames, ofPieces]
  rcases List.eq_nil_or_concat dir with rfl | ⟨front, last, rfl⟩
  · have relative : (⟨n⟩ : Path).isAbsolute = false := by
      rw [isAbsolute, beq_eq_false_iff_ne]
      exact fun head => entry.whole (List.mem_of_mem_head? head)
    have top : ofNames true [] = ⟨"/"⟩ := by decide
    rw [top, child, join, relative]
    simp [ofNames, ofPieces, Text.join, ← String.toList_inj]
  · rw [List.concat_eq_append] at *
    obtain ⟨absolute, kept, split, pieces⟩ := pieces_child some_ entry
    rw [isAbsolute_ofNames folder] at absolute
    rw [pieces_ofNames (by simp) folder] at split
    rcases split with rfl | split
    · rw [← ofPieces_pieces ((ofNames true (front ++ [last])).child n), absolute, pieces]
      simp [ofNames]
    · have idle : ([] : Text) = last.toList := by
        have ends := congrArg List.getLast? split
        simpa using ends.symm
      exact absurd idle.symm (folder last (by simp)).ne_nil

theorem descend_ofNames (proper : ∀ m ∈ dir ++ names, IsEntryName m) :
    (ofNames true dir).descend names = ofNames true (dir ++ names) := by
  induction names generalizing dir with
  | nil => simp
  | cons n rest ih =>
    have first : ∀ m ∈ dir ++ [n], IsEntryName m := fun m member => proper m (by
      rcases List.mem_append.mp member with member | member
      · simp [member]
      · simp [List.mem_singleton.mp member])
    rw [descend_cons, child_ofNames first, ih (by simpa using proper), List.append_assoc]
    rfl

/-- Different names make different paths. -/
theorem ofNames_inj (proper : ∀ m ∈ dir, IsEntryName m) (proper' : ∀ m ∈ names, IsEntryName m)
    (same : ofNames true dir = ofNames true names) : dir = names := by
  have steps := congrArg components same
  rw [components_ofNames proper, components_ofNames proper'] at steps
  exact List.map_injective_iff.mpr (fun a b same => by simpa using same) (List.cons.inj steps).2

/-- All folders above a folder are passed on the way up, as far as the boundary. -/
theorem mem_upTo (proper : ∀ m ∈ dir, IsEntryName m) (above : upper <+: dir) {boundary? : Option Path}
    (bound : ∀ b, boundary? = some b → ∃ ms, b.components = .top :: ms.map .name ∧ ms <+: upper)
    {fuel : Nat} (enough : dir.length ≤ fuel) :
    ofNames true upper ∈ Workspace.upTo boundary? (ancestorsUpTo fuel (ofNames true dir)) := by
  induction dir using List.reverseRecOn generalizing fuel with
  | nil =>
    obtain rfl := List.prefix_nil.mp above
    cases fuel with
    | zero => rw [ancestorsUpTo, Workspace.upTo]; split <;> simp
    | succ fuel =>
      have top : (ofNames true []).parent? = none := by decide
      rw [ancestorsUpTo, top, Workspace.upTo]
      split <;> simp
  | append_singleton front n ih =>
    cases fuel with
    | zero => simp at enough
    | succ fuel =>
      rw [ancestorsUpTo, parent?_ofNames proper]
      dsimp only
      rcases List.prefix_concat_iff.mp above with rfl | above
      · rw [Workspace.upTo]
        split <;> simp
      · have further : ¬(boundary?.any (ofNames true (front ++ [n])).same = true) := by
          intro here
          cases boundary? with
          | none => simp at here
          | some b =>
          have same : (ofNames true (front ++ [n])).same b = true := here
          obtain ⟨ms, steps, before_⟩ := bound b rfl
          rw [Path.same, components_ofNames proper, steps, beq_iff_eq, List.cons.injEq] at same
          have names := List.map_injective_iff.mpr (fun _ _ => Component.name.inj) same.2
          have shorter := (before_.trans above).length_le
          rw [← names, List.length_append, List.length_singleton] at shorter
          omega
        rw [Workspace.upTo, if_neg further]
        refine List.mem_cons_of_mem _ (ih (fun m member => proper m (by simp [member])) above ?_)
        simpa using enough

end Path

namespace Disk

variable {d : Disk} {names here : List String} {what : Option File}

/-- Names lead from a place to what stands there. -/
theorem follow_names {top : Folder} (proper : ∀ n ∈ names, IsEntryName n)
    (there : top.shape (here ++ names) = some what) :
    follow top here (names.map String.toList) = .ok (here ++ names) := by
  induction names generalizing here with
  | nil => simp [follow]
  | cons n rest ih =>
    obtain ⟨inside, at_⟩ := Folder.shape_eq_folder_iff.mp (Folder.shape_of_append there (by simp))
    rw [List.map_cons, follow, at_]
    simp only [(proper n (by simp)).step]
    rw [ih (fun m member => proper m (by simp [member])) (by simpa using there)]
    simp

/-- A path of names leads to what stands there. -/
theorem locate_ofNames (proper : ∀ n ∈ names, IsEntryName n)
    (there : d.top.shape names = some what) : d.locate (.ofNames true names) = .ok names := by
  refine locate_eq_ok_iff.mpr ⟨[], by rw [start, Path.isAbsolute_ofNames proper]; rfl, ?_⟩
  cases names with
  | nil => rfl
  | cons n rest =>
    rw [Path.pieces_ofNames (by simp) proper]
    exact follow_names proper there

end Disk

namespace Folder

variable {config : Config} {here p : Path} {d inside : Folder} {name : String}

theorem mem_files_of_find? {f : File} (entry : d.find? name = some (.file f)) : name ∈ d.files := by
  induction d with
  | empty => simp [find?] at entry
  | file n g rest ih =>
    rw [find?] at entry
    split at entry
    · next same => simp [files, eq_of_beq same]
    · exact List.mem_cons_of_mem _ (ih entry)
  | folder n inner rest _ ih =>
    rw [find?] at entry
    split at entry
    · simp at entry
    · exact ih entry

/-- The sources of a folder in a folder are deeper sources. -/
theorem mem_deeperSources (entry : d.find? name = some (.folder inside))
    (source : p ∈ inside.sources config (here.child name)) : p ∈ d.deeperSources config here := by
  induction d with
  | empty => simp [find?] at entry
  | file n g rest ih =>
    rw [find?] at entry
    split at entry
    · simp at entry
    · exact ih entry
  | folder n inner rest _ ih =>
    rw [find?] at entry
    rw [deeperSources, List.mem_append]
    split at entry
    · next same =>
      obtain rfl := eq_of_beq same
      obtain rfl := Item.folder.inj (Option.some.inj entry)
      exact .inl source
    · exact .inr (ih entry)

/-- A source lies below an entry of the folder. -/
theorem exists_entry_of_mem_sources (proper : d.Proper) (member : p ∈ d.sources config here) :
    ∃ n more, d.find? n ≠ none ∧ (∀ m ∈ n :: more, IsEntryName m) ∧ p = here.descend (n :: more) := by
  obtain ⟨names, source, rfl⟩ := (mem_sources_iff proper).mp member
  obtain ⟨n, more, rfl⟩ := List.exists_cons_of_ne_nil source.ne_nil
  obtain ⟨⟨f, at_⟩, _, _⟩ := source
  refine ⟨n, more, fun none_ => ?_, proper.entries_of_at? at_, rfl⟩
  simp [at?, none_] at at_

/-- What lies below an entry does not lie below others. -/
theorem descend_notMem_sources {n : String} {more : List String} (proper : d.Proper)
    (written : here.text.toList ≠ []) (new : d.find? n = none)
    (entries : ∀ m ∈ n :: more, IsEntryName m) : here.descend (n :: more) ∉ d.sources config here := by
  intro member
  obtain ⟨m, more', there, entries', same⟩ := exists_entry_of_mem_sources proper member
  have names := Path.descend_inj written (by simp) (by simp) entries entries' same
  exact there (by rw [← (List.cons.inj names).1, new])

/-- The walk finds no source twice. -/
theorem nodup_sources (proper : d.Proper) (written : here.text.toList ≠ []) :
    (d.sources config here).Nodup := by
  induction d generalizing here with
  | empty => exact List.nodup_nil
  | file n f rest ih =>
    obtain ⟨entry, new, proper⟩ := proper
    rw [sources]
    refine List.nodup_append'.mpr ⟨by split <;> simp, ih proper written, fun q first later => ?_⟩
    obtain rfl : q = here.child n := by
      split at first
      · simpa using first
      · simp at first
    have single : ∀ m ∈ [n], IsEntryName m := by simpa using entry
    exact descend_notMem_sources proper written new single later
  | folder n inner rest ihi ih =>
    obtain ⟨entry, new, properi, proper⟩ := proper
    have single : ∀ m ∈ [n], IsEntryName m := by simpa using entry
    have written' : (here.descend [n]).text.toList ≠ [] := Path.written_descend written single
    rw [sources]
    refine List.nodup_append'.mpr ⟨?_, ih proper written, fun q first later => ?_⟩
    · split
      · exact List.nodup_nil
      · exact ihi properi written'
    · split at first
      · simp at first
      · obtain ⟨names, source, rfl⟩ := (mem_sources_iff properi).mp first
        obtain ⟨⟨f, at_⟩, _, _⟩ := source
        have entries : ∀ m ∈ n :: names, IsEntryName m := by
          simpa [entry] using properi.entries_of_at? at_
        exact descend_notMem_sources proper written new entries later

end Folder

namespace Workspace

variable {w : Workspace} {config : Config} {f : Finding} {l : List Path} {other : Path}

/-! ### What a validation reports -/

/-- The walk from the root finds no source twice. -/
theorem nodup_sources (proper : w.disk.top.Proper) : w.sources.Nodup := by
  rw [sources]
  split
  · next inside found =>
    obtain ⟨names, led, at_⟩ := Disk.find_eq_ok_iff_locate.mp found
    obtain ⟨_, started, _⟩ := Disk.locate_eq_ok_iff.mp led
    exact Folder.nodup_sources (proper.of_at? at_) (Disk.ne_nil_of_start started)
  · split <;> simp
  · simp

theorem nodup_registries (proper : w.disk.top.Proper) : w.registries.Nodup :=
  (nodup_sources proper).filter _

/-- A nested pair has two registries of which one has its folder at or below that of the other. -/
theorem of_mem_nestedPairs (nodup : l.Nodup) (member : f ∈ nestedPairs config l)
    (issue : f.issue = .nested other) : f.file ∈ l ∧ other ∈ l ∧ f.file ≠ other ∧
      ∃ a b, f.file.parent? = some a ∧ other.parent? = some b ∧
        (a.isUnder b = true ∨ b.isUnder a = true) := by
  induction l with
  | nil => simp [nestedPairs] at member
  | cons a rest ih =>
    obtain ⟨new, nodup⟩ := List.nodup_cons.mp nodup
    rw [nestedPairs] at member
    rcases List.mem_append.mp member with member | member
    · obtain ⟨b, inside, pair⟩ := List.mem_filterMap.mp member
      have different : a ≠ b := fun same => new (same ▸ inside)
      rw [nestedPair] at pair
      split at pair
      · next folderA folderB parentA parentB =>
        split at pair
        · next under =>
          obtain rfl := Option.some.inj pair
          obtain rfl := Issue.nested.inj issue
          exact ⟨by simp [Finding.of, inside], by simp, different.symm, _, _, parentB, parentA,
            .inl under⟩
        · split at pair
          · next under =>
            obtain rfl := Option.some.inj pair
            obtain rfl := Issue.nested.inj issue
            exact ⟨by simp [Finding.of], by simp [inside], different, _, _, parentA, parentB,
              .inl under⟩
          · simp at pair
      · simp at pair
    · obtain ⟨first, second, rest⟩ := ih nodup member
      exact ⟨by simp [first], by simp [second], rest⟩

theorem not_nested_of_mem_helperFindings {registries : List Path} {registered : Registered}
    {first? : Option Path} {h : HelperFile}
    (member : f ∈ w.helperFindings registries registered first? h) : f.issue ≠ .nested other := by
  rw [helperFindings] at member
  split at member
  · split at member
    · obtain rfl := List.mem_singleton.mp member
      simp [Finding.of]
    · simp at member
  · rcases List.mem_append.mp member with member | member
    · rcases List.mem_append.mp member with member | member
      · obtain ⟨first, _, rfl⟩ := Option.map_eq_some_iff.mp (Option.mem_toList.mp member)
        simp [Finding.of]
      · obtain ⟨r, _, rfl⟩ := List.mem_map.mp member
        simp [Finding.of]
    · split at member
      · obtain rfl := List.mem_singleton.mp member
        simp [Finding.of]
      · simp at member

/-- Registries that a validation reports as nested are a pair of those that the walk finds. -/
theorem mem_nestedPairs_of_validate {p : Preferences} {report : ValidationReport}
    (valid : w.validate p = .ok report) (member : f ∈ report.findings)
    (issue : f.issue = .nested other) : f ∈ nestedPairs w.config w.settled.registries := by
  rw [validate] at valid
  cases read : w.settled.readRegistries w.settled.registries with
  | error why =>
    rw [settled] at read
    simp [read, bind, Except.bind] at valid
  | ok registries =>
    have read' := read
    rw [settled] at read'
    simp only [read', bind, Except.bind, pure, Except.pure, Except.ok.injEq] at valid
    subst valid
    simp only [(sorted_perm ..).mem_iff, List.mem_append] at member
    rcases member with ((member | member) | member) | member
    · exact member
    · obtain ⟨e, _, o, _, rfl⟩ := exists_of_mem_orphanFindings member
      simp [Finding.of] at issue
    · obtain ⟨h, first?, member⟩ := exists_of_mem_allHelperFindings member
      exact absurd issue (not_nested_of_mem_helperFindings member)
    · obtain ⟨label, kind⟩ := issue_of_mem_staleFindings member
      simp [kind] at issue

/-! ### What is reported around a folder -/

variable {ms ds mid front : List String} {n : String} {file : File}

/-- A registry that stands directly in a folder is listed there. -/
theorem child_mem_registriesIn {folder : Path} {inside : Folder} {file : File}
    (found : w.disk.find folder = .ok (.folder inside)) (entry : inside.find? n = some (.file file))
    (source : w.config.isSource n = true) (registry : w.isRegistry (folder.child n) = true) :
    folder.child n ∈ w.registriesIn folder := by
  rw [registriesIn, found]
  refine (sorted_perm _ _).mem_iff.mpr (List.mem_filter.mpr ⟨List.mem_map_of_mem ?_, registry⟩)
  exact List.mem_filter.mpr ⟨Folder.mem_files_of_find? entry, source⟩

/-- The sources that a validation goes through, by the names that lead to them from the top. -/
theorem mem_settled_sources_iff {p : Path} (proper : w.disk.top.Proper)
    (top : ∀ m ∈ ms, IsEntryName m) (root : w.root.normal = .ofNames true ms)
    (folder : w.disk.top.shape ms = some none) : p ∈ w.settled.sources ↔ ∃ way n,
      (∃ file, w.disk.top.shape (ms ++ way ++ [n]) = some (some file)) ∧
        w.config.Shows (.ofNames true ms) (way ++ [n]) ∧ w.config.isSource n = true ∧
          p = .ofNames true (ms ++ way ++ [n]) := by
  have led : w.settled.disk.locate w.settled.root = .ok ms := by
    rw [settled, root]
    exact Disk.locate_ofNames top folder
  rw [mem_sources_iff_shape (w := w.settled) proper led folder]
  have descends : ∀ way n file, w.disk.top.shape (ms ++ way ++ [n]) = some (some file) →
      (Path.ofNames true ms).descend (way ++ [n]) = .ofNames true (ms ++ way ++ [n]) := by
    intro way n file there
    have all := proper.entries_of_at? (Folder.shape_eq_file_iff.mp there)
    rw [Path.descend_ofNames (by simpa using all), List.append_assoc]
  constructor
  · rintro ⟨names, ⟨file, there⟩, shown, isSource, rfl⟩
    rcases List.eq_nil_or_concat' names with rfl | ⟨way, n, rfl⟩
    · simp at isSource
    · rw [← List.append_assoc] at there
      rw [List.getLast?_concat] at isSource
      rw [settled, root] at shown ⊢
      exact ⟨way, n, ⟨file, there⟩, shown, isSource, descends way n file there⟩
  · rintro ⟨way, n, ⟨file, there⟩, shown, isSource, rfl⟩
    refine ⟨way ++ [n], ⟨file, by rw [← List.append_assoc]; exact there⟩, ?_, ?_, ?_⟩
    · rw [settled, root]
      exact shown
    · rw [List.getLast?_concat]
      exact isSource
    · rw [settled, root]
      exact (descends way n file there).symm

/-- A registry in a folder on the way down to the given one is reported above it. -/
theorem isNested_of_above (entries : ∀ m ∈ ds, IsEntryName m)
    (all : ∀ m ∈ ms ++ mid ++ [n], IsEntryName m)
    (at_ : w.disk.top.at? (ms ++ mid ++ [n]) = some (.file file)) (on_way : ms ++ mid <+: ds)
    (source_name : w.config.isSource n = true)
    (is_registry : w.isRegistry (.ofNames true (ms ++ mid ++ [n])) = true) {boundary? : Option Path}
    (bound : ∀ b, boundary? = some b → b.components = .top :: ms.map .name) :
    (w.nesting (.ofNames true ds) boundary?).isNested = true := by
  obtain ⟨inside, at_folder, entry⟩ := Folder.at?_concat_iff.mp at_
  have found : w.disk.find (.ofNames true (ms ++ mid)) = .ok (.folder inside) :=
    Disk.find_eq_ok_iff_locate.mpr ⟨_, Disk.locate_ofNames
      (fun m member => all m (List.mem_append_left _ member))
      (Folder.shape_eq_folder_iff.mpr ⟨inside, at_folder⟩), at_folder⟩
  have passed : Path.ofNames true (ms ++ mid) ∈
      upTo boundary? (Path.ancestors (.ofNames true ds)) := by
    refine Path.mem_upTo entries on_way (fun b here => ⟨ms, bound b here, List.prefix_append ..⟩) ?_
    rw [Path.components_ofNames entries]
    simp
  rw [← Path.child_ofNames all] at is_registry
  have listed := child_mem_registriesIn found entry source_name is_registry
  rw [Nesting.isNested, Bool.or_eq_true]
  exact .inl (by simpa [nesting] using ⟨_, passed, List.ne_nil_of_mem listed⟩)

/-- A registry in a folder below the given one is reported below it. -/
theorem isNested_of_below {m : String} {more : List String} (proper : w.disk.top.Proper)
    (entries : ∀ k ∈ ds, IsEntryName k) (all : ∀ k ∈ ds ++ m :: (more ++ [n]), IsEntryName k)
    (at_ : w.disk.top.at? (ds ++ m :: (more ++ [n])) = some (.file file))
    (shown : w.config.Shows (.ofNames true ds) (m :: (more ++ [n])))
    (source_name : w.config.isSource n = true)
    (is_registry : w.isRegistry (.ofNames true (ds ++ m :: (more ++ [n]))) = true)
    (boundary? : Option Path) : (w.nesting (.ofNames true ds) boundary?).isNested = true := by
  obtain ⟨inside, at_folder⟩ := Folder.shape_eq_folder_iff.mp
    (Folder.shape_of_append (Folder.shape_eq_file_iff.mpr at_) (List.cons_ne_nil _ _))
  rw [Folder.at?_append _ at_folder] at at_
  obtain ⟨deeper, entry⟩ : ∃ deeper, inside.find? m = some (.folder deeper) := by
    rw [Folder.at?] at at_
    split at at_
    · exact ⟨_, by assumption⟩
    · simp at at_
    · simp at at_
  rw [Folder.at?, entry] at at_
  have found : w.disk.find (.ofNames true ds) = .ok (.folder inside) :=
    Disk.find_eq_ok_iff_locate.mpr ⟨_, Disk.locate_ofNames entries
      (Folder.shape_eq_folder_iff.mpr ⟨inside, at_folder⟩), at_folder⟩
  have inner : deeper.Proper := ((proper.of_at? at_folder).of_find? entry).2 _ rfl
  have first : ∀ k ∈ ds ++ [m], IsEntryName k := fun k member => all k (by
    rcases List.mem_append.mp member with member | member
    · simp [member]
    · simp [List.mem_singleton.mp member])
  have way : ((Path.ofNames true ds).child m).descend (more ++ [n]) =
      .ofNames true (ds ++ m :: (more ++ [n])) := by
    rw [Path.child_ofNames first, Path.descend_ofNames (by simpa using all), List.append_assoc]
    rfl
  have listed : Path.ofNames true (ds ++ m :: (more ++ [n])) ∈
      deeper.sources w.config ((Path.ofNames true ds).child m) :=
    (Folder.mem_sources_iff inner).mpr
      ⟨more ++ [n], ⟨⟨file, at_⟩, shown.2, by rw [List.getLast?_concat]; exact source_name⟩, way.symm⟩
  rw [Nesting.isNested, Bool.or_eq_true]
  exact .inr (by simpa [nesting, found] using ⟨_, Folder.mem_deeperSources entry listed, is_registry⟩)

/-- A registry of the walk that lies on one line with a folder below the root is reported around the
folder, be it in the folder, above it or below it. -/
theorem isNested_nesting (proper : w.disk.top.Proper) (entries : ∀ m ∈ ds, IsEntryName m)
    (root : w.root.normal = .ofNames true ms) (folder : w.disk.top.shape ms = some none)
    (under : ms <+: ds) {registry : Path} (source : registry ∈ w.settled.sources)
    (is_registry : w.isRegistry registry = true) {parent : Path}
    (parent_eq : registry.parent? = some parent)
    (line : parent.isUnder (.ofNames true ds) = true ∨ Path.isUnder (.ofNames true ds) parent = true)
    {boundary? : Option Path}
    (bound : ∀ b, boundary? = some b → b.components = .top :: ms.map .name) :
    (w.nesting (.ofNames true ds) boundary?).isNested = true := by
  obtain ⟨mid, n, ⟨file, there⟩, shown, source_name, rfl⟩ := (mem_settled_sources_iff proper
    (fun m member => entries m (under.subset member)) root folder).mp source
  have at_ : w.disk.top.at? (ms ++ mid ++ [n]) = some (.file file) :=
    Folder.shape_eq_file_iff.mp there
  have all : ∀ m ∈ ms ++ mid ++ [n], IsEntryName m := proper.entries_of_at? at_
  have above : ∀ m ∈ ms ++ mid, IsEntryName m := fun m member =>
    all m (List.mem_append_left _ member)
  rw [Path.parent?_ofNames all] at parent_eq
  obtain rfl := Option.some.inj parent_eq
  rw [Specifier.isUnder_ofNames above entries, Specifier.isUnder_ofNames entries above] at line
  -- The registry stands in a folder of the way down to the given one, or in one below it.
  by_cases on_way : ms ++ mid <+: ds
  · exact isNested_of_above entries all at_ on_way source_name is_registry bound
  · obtain ⟨deeper, split⟩ := line.resolve_right on_way
    cases deeper with
    | nil => exact absurd ⟨[], by simpa using split.symm⟩ on_way
    | cons m more =>
      obtain ⟨way, rfl⟩ := under
      obtain rfl : mid = way ++ m :: more := by simpa using split.symm
      have whole : ms ++ (way ++ m :: more) ++ [n] = ms ++ way ++ m :: (more ++ [n]) := by simp
      rw [whole] at at_ all is_registry
      rw [List.append_assoc, Config.shows_append, Path.descend_ofNames entries] at shown
      exact isNested_of_below proper entries all at_ shown.2 source_name is_registry boundary?

end Workspace
end Registrar
