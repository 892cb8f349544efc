import Mathlib.Data.Set.List
import Registrar.Proofs.Workspace.Nested

/-!
Specifiers are decoded to what they were made from. Paths are taken as they are written, with slashes
that say nothing, as long as no step leads upward: such a path has the steps of one in normal form, and
neither the encoder nor the resolver looks at more than the steps.
-/

namespace Registrar

namespace Path

variable {p q folder : Path} {names : List String} {extension : String}

/-- The path leads from the top downward. -/
structure Descends (p : Path) : Prop where
  absolute : p.isAbsolute = true
  onward : .up ∉ p.components

instance (p : Path) : Decidable p.Descends :=
  decidable_of_iff (p.isAbsolute = true ∧ .up ∉ p.components)
    ⟨fun ⟨absolute, onward⟩ => ⟨absolute, onward⟩, fun ⟨absolute, onward⟩ => ⟨absolute, onward⟩⟩

/-- The normal form of the path with an extension taken off the last name. -/
def withoutEnding (extension : String) (p : Path) : Path :=
  ofNames p.isAbsolute ((namesOf p.components).dropLast ++
    [Naming.withoutExtension extension (p.fileName?.getD "")])

theorem namesOf_top (names : List String) : namesOf (.top :: names.map .name) = names :=
  foldl_follow_names []

/-! ### Steps -/

/-- A path that leads downward has the steps of its names. -/
theorem Descends.components_eq (down : p.Descends) :
    p.components = .top :: (namesOf p.components).map .name := by
  have steps := components_of_isAbsolute down.absolute
  obtain ⟨names, named⟩ : p.pieces.filterMap component? ∈ Set.range (List.map Component.name) := by
    rw [Set.range_list_map]
    intro step member
    obtain ⟨piece, _, read⟩ := List.mem_filterMap.mp member
    rcases component?_cases piece with kind | kind | ⟨n, kind⟩
    · simp [kind] at read
    · rw [kind] at read
      obtain rfl := Option.some.inj read
      exact absurd (by simp [steps, member]) down.onward
    · exact ⟨n, Option.some.inj (kind.symm.trans read)⟩
  rw [steps, ← named, namesOf_top]

theorem Descends.normal_eq (down : p.Descends) : p.normal = ofNames true (namesOf p.components) := by
  rw [normal, down.absolute]

theorem normal_congr (absolute : p.isAbsolute = q.isAbsolute) (same : p.components = q.components) :
    p.normal = q.normal := by
  rw [normal, normal, absolute, same]

/-! ### The folder of a file -/

theorem withoutIdleEnd_eq (pieces : List Text) :
    withoutIdleEnd true pieces = (pieces.reverse.dropWhile isIdle).reverse := by
  rw [withoutIdleEnd]
  split
  · next none_ => simp [none_]
  · rfl

theorem filterMap_dropWhile (pieces : List Text) :
    (pieces.dropWhile isIdle).filterMap component? = pieces.filterMap component? := by
  induction pieces with
  | nil => rfl
  | cons piece rest ih =>
    by_cases idle : isIdle piece = true
    · rw [List.dropWhile_cons_of_pos idle, ih, List.filterMap_cons, component?, if_pos idle]
    · rw [List.dropWhile_cons_of_neg idle]

theorem filterMap_withoutIdleEnd (pieces : List Text) :
    (withoutIdleEnd true pieces).filterMap component? = pieces.filterMap component? := by
  rw [withoutIdleEnd_eq, List.filterMap_reverse, filterMap_dropWhile, List.filterMap_reverse,
    List.reverse_reverse]

theorem withoutIdleEnd_subset (pieces : List Text) : withoutIdleEnd true pieces ⊆ pieces := by
  intro piece member
  rw [withoutIdleEnd_eq, List.mem_reverse] at member
  exact List.mem_reverse.mp ((List.dropWhile_sublist isIdle).subset member)

theorem exists_step_of_busy {piece : Text} (busy : isIdle piece = false) :
    ∃ step, component? piece = some step := by
  rw [component?, busy]
  by_cases up : piece = ['.', '.']
  · exact ⟨.up, by simp [up]⟩
  · exact ⟨.name (String.ofList piece), by simp [up]⟩

/-- The last piece that is kept is a step. -/
theorem exists_step_of_withoutIdleEnd {pieces front : List Text} {piece : Text}
    (kept : withoutIdleEnd true pieces = front ++ [piece]) : ∃ step, component? piece = some step := by
  have dropped : pieces.reverse.dropWhile isIdle = piece :: front.reverse := by
    rw [withoutIdleEnd_eq] at kept
    simpa using congrArg List.reverse kept
  have head := List.head?_dropWhile_not isIdle pieces.reverse
  rw [dropped] at head
  exact exists_step_of_busy (by simpa using head)

theorem components_ofPieces {pieces : List Text} (whole : ∀ piece ∈ pieces, '/' ∉ piece) :
    (ofPieces true pieces).components = .top :: pieces.filterMap component? := by
  have absolute : (ofPieces true pieces).isAbsolute = true := by simp [ofPieces, isAbsolute]
  have split : (ofPieces true pieces).pieces = Text.splitOn (· == '/') (Text.join ['/'] pieces) := by
    rw [Path.pieces, absolute]
    simp [ofPieces]
  rw [components_of_isAbsolute absolute, split]
  cases pieces with
  | nil => rfl
  | cons piece rest => rw [Text.splitOn_join (by simp) whole]

theorem not_mem_of_mem_pieces {piece : Text} (member : piece ∈ p.pieces) : '/' ∉ piece := by
  intro slash
  simpa using Text.not_mem_of_mem_splitOn member '/' slash

/-- An absolute path has the steps of its folder and one more. -/
theorem exists_of_parent? (absolute : p.isAbsolute = true) (parent : p.parent? = some folder) :
    folder.isAbsolute = true ∧ ∃ step, p.components = folder.components ++ [step] := by
  rw [parent?, absolute] at parent
  rcases List.eq_nil_or_concat' (withoutIdleEnd true p.pieces) with none_ | ⟨front, piece, kept⟩
  · simp [none_] at parent
  · have whole : ∀ piece ∈ withoutIdleEnd true front, '/' ∉ piece := by
      intro piece member
      refine not_mem_of_mem_pieces (p := p) (withoutIdleEnd_subset _ ?_)
      rw [kept]
      exact List.mem_append_left _ (withoutIdleEnd_subset _ member)
    have split : folder = ofPieces true (withoutIdleEnd true front) := by
      rw [kept] at parent
      split at parent
      · next none_ => simp at none_
      · rw [List.dropLast_concat] at parent
        exact (Option.some.inj parent).symm
    obtain ⟨step, step_eq⟩ := exists_step_of_withoutIdleEnd kept
    refine ⟨by simp [split, ofPieces, isAbsolute], step, ?_⟩
    rw [split, components_ofPieces whole, filterMap_withoutIdleEnd, components_of_isAbsolute absolute,
      ← filterMap_withoutIdleEnd p.pieces, kept, List.filterMap_append]
    simp [step_eq]

/-- A file that leads downward lies in a folder that does, and adds one name. -/
theorem Descends.exists_of_parent? (down : p.Descends) (parent : p.parent? = some folder) :
    folder.Descends ∧ ∃ n, namesOf p.components = namesOf folder.components ++ [n] := by
  obtain ⟨absolute, step, steps⟩ := Path.exists_of_parent? down.absolute parent
  have down' : folder.Descends := ⟨absolute, fun up => down.onward (by simp [steps, up])⟩
  refine ⟨down', ?_⟩
  have named := down.components_eq
  rw [steps, down'.components_eq, List.cons_append] at named
  obtain ⟨front, back, names, same, last⟩ := List.map_eq_append_iff.mp (List.cons.inj named).2.symm
  obtain ⟨n, rest, rfl, rfl, none_⟩ := List.map_eq_cons_iff.mp last
  obtain rfl := List.map_eq_nil_iff.mp none_
  refine ⟨n, ?_⟩
  have front_eq : front = namesOf folder.components :=
    List.map_injective_iff.mpr (fun a b same => by simpa using same) same
  rw [steps, down'.components_eq, List.cons_append, ← front_eq, ← List.map_singleton, ← List.map_append,
    namesOf_top, namesOf_top]

end Path

namespace Specifier

open Path

variable {config : Config} {root importer importer' file file' : Path} {extension : String}

/-! ### Only the steps count -/

theorem relative_congr (folders : (importer.parent?.getD ⟨"/"⟩).components =
      (importer'.parent?.getD ⟨"/"⟩).components) (files : file.components = file'.components) :
    relative extension importer file = relative extension importer' file' := by
  have ways : way (importer.parent?.getD ⟨"/"⟩) file = way (importer'.parent?.getD ⟨"/"⟩) file' := by
    rw [way, way, named, named, named, named, folders, files]
  rw [relative, relative, ways]

theorem relative_head? (extension : String) (importer file : Path) :
    (relative extension importer file).toList.head? = some '.' := by
  rw [relative, String.toList_ofList]
  split
  · next dot => exact eq_of_beq dot
  · rfl

/-- What begins with a dot is read from the folder of the importing file, and of that folder only the
steps count. -/
theorem base?_congr {folder folder' : Path} {specifier : String}
    (dot : specifier.toList.head? = some '.') (parent : importer.parent? = some folder)
    (parent' : importer'.parent? = some folder') (absolute : folder.isAbsolute = true)
    (absolute' : folder'.isAbsolute = true) (same : folder.components = folder'.components) :
    base? config root importer specifier = base? config root importer' specifier := by
  have slash : specifier.toList.head? ≠ some '/' := by simp [dot]
  have joined := components_join absolute slash
  have joined' := components_join absolute' slash
  rw [String.ofList_toList] at joined joined'
  have top : ∀ {p q : Path}, p.isAbsolute = true → q.components = p.components ++
      (Text.splitOn (· == '/') specifier.toList).filterMap component? → q.isAbsolute = true := by
    intro p q absolute steps
    exact isAbsolute_of_head? (by rw [steps, components_of_isAbsolute absolute]; rfl)
  have read : (folder.join ⟨specifier⟩).normal = (folder'.join ⟨specifier⟩).normal :=
    normal_congr ((top absolute joined).trans (top absolute' joined').symm)
      (by rw [joined, joined', same])
  rw [base?, base?, if_pos (by simp [dot]), if_pos (by simp [dot]), parent, parent', Option.map_some,
    Option.map_some, read]

/-! ### The extension -/

theorem toList_withoutExtension (extension name : String) :
    (Naming.withoutExtension extension name).toList = dropExtension extension name.toList := by
  rw [Naming.withoutExtension, dropExtension]
  cases Text.dropBack? name.toList extension.toList <;> simp

theorem withoutExtension_append (stem extension : String) :
    Naming.withoutExtension extension (stem ++ extension) = stem := by
  rw [← String.toList_inj, toList_withoutExtension, String.toList_append, dropExtension_append]

/-- A name ends with the extension or is left as it is. -/
theorem withoutExtension_cases (extension name : String) :
    (∃ stem, name = stem ++ extension) ∨ ¬extension.toList <:+ name.toList ∧
      Naming.withoutExtension extension name = name := by
  by_cases ends_ : extension.toList <:+ name.toList
  · obtain ⟨stem, split⟩ := ends_
    exact .inl ⟨String.ofList stem, by simp [← String.toList_inj, split]⟩
  · refine .inr ⟨ends_, ?_⟩
    rw [← String.toList_inj, toList_withoutExtension, dropExtension, Text.dropBack?, Text.finishesWith]
    simp [ends_]

/-- The extension of the last name is that of the whole way. -/
theorem dropExtension_join (whole : '/' ∉ extension.toList) (pieces : List Text) (name : String) :
    dropExtension extension (Text.join ['/'] (pieces ++ [name.toList])) =
      Text.join ['/'] (pieces ++ [(Naming.withoutExtension extension name).toList]) := by
  rcases withoutExtension_cases extension name with ⟨stem, rfl⟩ | ⟨other, same⟩
  · rw [withoutExtension_append, String.toList_append, join_concat_append, dropExtension_append]
  · rw [dropExtension_eq_self whole other, same]

theorem isEntryName_withoutExtension {name : String} (proper : IsEntryName name)
    (left : Naming.withoutExtension extension name ∉ ["", ".", ".."]) :
    IsEntryName (Naming.withoutExtension extension name) := by
  have whole : '/' ∉ (Naming.withoutExtension extension name).toList := by
    rcases withoutExtension_cases extension name with ⟨stem, rfl⟩ | ⟨_, same⟩
    · rw [withoutExtension_append]
      exact fun slash => proper.whole (by simp [slash])
    · rw [same]
      exact proper.whole
  generalize Naming.withoutExtension extension name = stem at left whole
  refine ⟨?_, whole⟩
  simp only [List.mem_cons, List.not_mem_nil, or_false, not_or, ← String.toList_inj] at left
  obtain ⟨some_, dot, dots⟩ := left
  rw [component?, isIdle]
  simp_all

/-! ### Decoding -/

/-- A file to which a specifier with the given extension can lead from the importing file. -/
structure Leads (extension : String) (importer file : Path) : Prop where
  start : importer.Descends
  target : file.Descends
  /-- The file is neither the folder of the importing file nor above it. -/
  outside : ∃ folder, importer.parent? = some folder ∧ folder.isUnder file = false
  /-- Without the extension the file still has a name. -/
  named : ∀ name, file.fileName? = some name →
    Naming.withoutExtension extension name ∉ ["", ".", ".."]

/-- The names that the paths go through. -/
theorem Leads.exists_names (leads : Leads extension importer file) : ∃ folder dir n front name,
    importer.parent? = some folder ∧ folder.Descends ∧ (∀ m ∈ dir ++ [n], IsEntryName m) ∧
      (∀ m ∈ front ++ [name], IsEntryName m) ∧ namesOf folder.components = dir ∧
      namesOf file.components = front ++ [name] ∧ file.fileName? = some name ∧
      ¬front ++ [name] <+: dir := by
  obtain ⟨folder, parent, outside⟩ := leads.outside
  obtain ⟨down, n, names⟩ := leads.start.exists_of_parent? parent
  have proper : ∀ m ∈ namesOf importer.components, IsEntryName m := isEntryName_of_mem_namesOf
  have proper' : ∀ m ∈ namesOf file.components, IsEntryName m := isEntryName_of_mem_namesOf
  have steps := leads.target.components_eq
  have below : ¬namesOf file.components <+: namesOf folder.components := by
    rw [isUnder, down.components_eq, steps, Bool.eq_false_iff, ne_eq,
      List.isPrefixOf_iff_prefix, List.prefix_cons_inj] at outside
    exact fun front => outside (front.map _)
  rcases List.eq_nil_or_concat' (namesOf file.components) with none_ | ⟨front, name, whole⟩
  · rw [none_] at below
    exact absurd List.nil_prefix below
  · have last : file.fileName? = some name := by
      rw [fileName?, steps, whole, List.map_append, ← List.cons_append, List.map_singleton,
        List.getLast?_concat]
    rw [names] at proper
    rw [whole] at proper' below
    exact ⟨folder, _, n, front, name, parent, down, proper, proper', rfl, whole, last, below⟩

/-- The specifier of a file is read back as the path of the file without the extension. -/
theorem Leads.base?_eq (leads : Leads config.sourceExtension importer file) (root : Path)
    (whole : '/' ∉ config.sourceExtension.toList) :
    base? config root importer (relative config.sourceExtension importer file) =
      some (file.withoutEnding config.sourceExtension) := by
  obtain ⟨folder, dir, n, front, name, parent, down, proper, proper', names, names', last, below⟩ :=
    leads.exists_names
  have dir_proper : ∀ m ∈ dir, IsEntryName m := fun m member => proper m (by simp [member])
  have parent' := parent?_ofNames proper
  have folders : folder.components = (ofNames true dir).components := by
    rw [components_ofNames dir_proper, down.components_eq, names]
  have files : file.components = (ofNames true (front ++ [name])).components := by
    rw [components_ofNames proper', leads.target.components_eq, names']
  have left := isEntryName_withoutExtension (proper' name (by simp)) (leads.named name last)
  have spec : relative config.sourceExtension importer file = relative config.sourceExtension
      (ofNames true (dir ++ [n])) (ofNames true (front ++ [name])) :=
    relative_congr (by rw [parent, parent', Option.getD_some, Option.getD_some, folders]) files
  rw [base?_congr (relative_head? ..) parent parent' down.absolute (isAbsolute_ofNames dir_proper true)
    folders, spec, base?_relative proper proper' below left fun pieces =>
      dropExtension_join whole pieces name, withoutEnding, leads.target.absolute, names',
    List.dropLast_concat, last, Option.getD_some]

theorem Leads.baseMatches_withoutEnding (leads : Leads config.sourceExtension importer file) :
    baseMatches config (file.withoutEnding config.sourceExtension) file = true := by
  obtain ⟨_, _, _, front, name, _, _, _, proper', _, names', last, _⟩ := leads.exists_names
  rw [withoutEnding, leads.target.absolute, names', List.dropLast_concat, last, Option.getD_some,
    baseMatches, leads.target.normal_eq, names']
  rcases withoutExtension_cases config.sourceExtension name with ⟨stem, rfl⟩ | ⟨_, same⟩
  · simp [withoutExtension_append, withExtension_ofNames]
  · simp [same, Path.same]

/-- Files that both have the extension share their specifier only if they are one file. -/
theorem Leads.same_of_relative {other : Path} (leads : Leads config.sourceExtension importer file)
    (leads' : Leads config.sourceExtension importer other)
    (whole : '/' ∉ config.sourceExtension.toList) {stem stem' : String}
    (ends_ : file.fileName? = some (stem ++ config.sourceExtension))
    (ends' : other.fileName? = some (stem' ++ config.sourceExtension))
    (same : relative config.sourceExtension importer file =
      relative config.sourceExtension importer other) : file.same other = true := by
  obtain ⟨_, _, _, front, _, _, _, _, proper, _, names, last, _⟩ := leads.exists_names
  obtain ⟨_, _, _, front', _, _, _, _, proper', _, names', last', _⟩ := leads'.exists_names
  obtain rfl := Option.some.inj (last.symm.trans ends_)
  obtain rfl := Option.some.inj (last'.symm.trans ends')
  have decoded := leads.base?_eq ⟨"/"⟩ whole
  rw [same, leads'.base?_eq ⟨"/"⟩ whole, withoutEnding, withoutEnding, leads.target.absolute,
    leads'.target.absolute, names, names', last, last', List.dropLast_concat, List.dropLast_concat,
    Option.getD_some, Option.getD_some, withoutExtension_append, withoutExtension_append] at decoded
  have stems : ∀ {front : List String} {stem : String}, (∀ m ∈ front ++ [stem ++ config.sourceExtension],
      IsEntryName m) → Naming.withoutExtension config.sourceExtension (stem ++ config.sourceExtension) ∉
        ["", ".", ".."] → ∀ m ∈ front ++ [stem], IsEntryName m := by
    intro front stem proper left m member
    rcases List.mem_append.mp member with member | member
    · exact proper m (by simp [member])
    · rw [List.mem_singleton.mp member, ← withoutExtension_append stem config.sourceExtension]
      exact isEntryName_withoutExtension (proper _ (by simp)) left
  have equal := ofNames_inj (stems proper' (leads'.named _ last')) (stems proper (leads.named _ last))
    (Option.some.inj decoded)
  obtain ⟨rfl, rest⟩ := List.append_inj' equal rfl
  obtain rfl := (List.cons.inj rest).1
  rw [Path.same, leads.target.components_eq, leads'.target.components_eq, names, names']
  exact beq_self_eq_true _

/-- Relative specifiers lead back: between paths that lead downward, the specifier of a file is read as
the file's path without the extension, which stands for the file, and two files with the extension
never have the same specifier. -/
theorem relative_decoded (root : Path) (whole : '/' ∉ config.sourceExtension.toList)
    (leads : Leads config.sourceExtension importer file) :
    base? config root importer (relative config.sourceExtension importer file) =
        some (file.withoutEnding config.sourceExtension) ∧
      baseMatches config (file.withoutEnding config.sourceExtension) file = true ∧
      ∀ other stem stem', Leads config.sourceExtension importer other →
        file.fileName? = some (stem ++ config.sourceExtension) →
        other.fileName? = some (stem' ++ config.sourceExtension) →
        relative config.sourceExtension importer file =
          relative config.sourceExtension importer other → file.same other = true :=
  ⟨leads.base?_eq root whole, leads.baseMatches_withoutEnding,
    fun _ _ _ leads' ends_ ends' same => leads.same_of_relative leads' whole ends_ ends' same⟩

/-- A hidden folder beside the importing file, written with slashes that say nothing: the specifier
begins with the dot of the folder's name. -/
theorem relative_decoded_hidden :
    let importer : Path := ⟨"//w/a//site.ts/"⟩
    let file : Path := ⟨"/w//a/.b/login.page.ts"⟩
    '/' ∉ ({} : Config).sourceExtension.toList ∧ Leads ({} : Config).sourceExtension importer file ∧
      relative ".ts" importer file = ".b/login.page" ∧
      base? {} ⟨"/w"⟩ importer ".b/login.page" = some ⟨"/w/a/.b/login.page"⟩ ∧
      baseMatches {} ⟨"/w/a/.b/login.page"⟩ file = true := by
  intro importer file
  have whole : '/' ∉ ({} : Config).sourceExtension.toList := by decide
  have leads : Leads ({} : Config).sourceExtension importer file :=
    ⟨by decide +kernel, by decide +kernel, ⟨⟨"//w/a"⟩, by decide +kernel⟩, fun name named => by
      obtain rfl : "login.page.ts" = name := Option.some.inj (Eq.trans (by decide +kernel) named)
      decide +kernel⟩
  have written : relative ".ts" importer file = ".b/login.page" := by decide +kernel
  have stem : file.withoutEnding ".ts" = ⟨"/w/a/.b/login.page"⟩ := by decide +kernel
  obtain ⟨decoded, matched, _⟩ := relative_decoded ⟨"/w"⟩ whole leads
  exact ⟨whole, leads, written, by rw [← written, ← stem]; exact decoded, by rw [← stem]; exact matched⟩

end Specifier
end Registrar
