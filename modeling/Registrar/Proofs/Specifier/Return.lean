import Registrar.Proofs.Path.Joined
import Registrar.Proofs.Workspace.Sources

/-!
The way back. Between absolute paths in normal form, a relative specifier is resolved to the path that
it was made from: to the file itself, or to the file without the source extension. The encoder counts
the steps that two paths share; the resolver knows nothing of the count and follows the text.
-/

namespace Registrar

namespace Path

variable {names dir : List String} {n : String}

/-- An absolute path in normal form is that of its names. -/
theorem IsNormal.exists_names {p : Path} (normal : p.IsNormal) (absolute : p.isAbsolute = true) :
    ∃ names, (∀ n ∈ names, IsEntryName n) ∧ p = ofNames true names :=
  ⟨namesOf p.components, isEntryName_of_mem_namesOf, by
    rw [← absolute]
    exact normal.symm⟩

theorem parent?_ofNames (proper : ∀ m ∈ dir ++ [n], IsEntryName m) :
    (ofNames true (dir ++ [n])).parent? = some (ofNames true dir) := by
  have busy : ∀ m ∈ dir ++ [n], isIdle m.toList = false := fun m member => (proper m member).not_idle
  have kept : withoutIdleEnd true (dir.map String.toList) = dir.map String.toList := by
    rcases List.eq_nil_or_concat dir with rfl | ⟨front, last, rfl⟩
    · rfl
    · rw [List.concat_eq_append, List.map_append, List.map_singleton]
      exact withoutIdleEnd_concat (busy last (by simp))
  rw [parent?, isAbsolute_ofNames proper, pieces_ofNames (by simp) proper, List.map_append,
    List.map_singleton, withoutIdleEnd_concat (busy n (by simp))]
  split
  · next none_ => simp at none_
  · rw [List.dropLast_concat, kept]
    rfl

theorem fileName?_ofNames (proper : ∀ m ∈ dir ++ [n], IsEntryName m) :
    (ofNames true (dir ++ [n])).fileName? = some n := by
  have last : (Component.top :: (dir ++ [n]).map .name).getLast? = some (.name n) := by
    rw [List.map_append, ← List.cons_append]
    exact List.getLast?_concat ..
  rw [fileName?, components_ofNames proper, last]

/-- A path in normal form that has a name is that name in a folder. -/
theorem IsNormal.exists_of_fileName? {p : Path} {name : String} (normal : p.IsNormal)
    (absolute : p.isAbsolute = true) (named : p.fileName? = some name) :
    ∃ front, (∀ m ∈ front ++ [name], IsEntryName m) ∧ p = ofNames true (front ++ [name]) := by
  obtain ⟨names, proper, rfl⟩ := normal.exists_names absolute
  rcases List.eq_nil_or_concat names with rfl | ⟨front, last, rfl⟩
  · have nameless : (ofNames true []).fileName? = none := by decide
    simp [nameless] at named
  · rw [List.concat_eq_append] at proper named ⊢
    rw [fileName?_ofNames proper] at named
    obtain rfl := Option.some.inj named
    exact ⟨front, proper, rfl⟩

/-- A path in normal form that has a parent is a name in that folder. -/
theorem IsNormal.exists_of_parent? {p folder : Path} (normal : p.IsNormal)
    (absolute : p.isAbsolute = true) (parent : p.parent? = some folder) :
    ∃ dir n, (∀ m ∈ dir ++ [n], IsEntryName m) ∧ p = ofNames true (dir ++ [n]) ∧
      folder = ofNames true dir := by
  obtain ⟨names, proper, rfl⟩ := normal.exists_names absolute
  rcases List.eq_nil_or_concat names with rfl | ⟨dir, n, rfl⟩
  · have top : (ofNames true []).parent? = none := by decide
    simp [top] at parent
  · rw [List.concat_eq_append] at proper parent ⊢
    rw [parent?_ofNames proper] at parent
    exact ⟨dir, n, proper, rfl, (Option.some.inj parent).symm⟩

/-! ### Following steps -/

theorem foldl_follow_up (count : Nat) (here : List String) :
    (List.replicate count Component.up).foldl follow here = here.take (here.length - count) := by
  induction count generalizing here with
  | zero => simp
  | succ count ih =>
    rw [List.replicate_succ, List.foldl_cons, ih]
    simp only [follow, List.length_dropLast]
    rw [List.dropLast_eq_take, List.take_take]
    congr 1
    omega

theorem isNormal_normal {p : Path} (absolute : p.normal.isAbsolute = true) : p.normal.IsNormal := by
  have top : p.isAbsolute = true := by
    rwa [normal, isAbsolute_ofNames isEntryName_of_mem_namesOf] at absolute
  have names : p.normal = ofNames true (namesOf p.components) := by rw [normal, top]
  rw [IsNormal, names, normal_ofNames isEntryName_of_mem_namesOf]

end Path

namespace Specifier

open Path

variable {config : Config} {root : Path} {dir names front : List String}

/-! ### Steps that are shared -/

theorem take_common (a b : List Component) : a.take (common a b) = b.take (common a b) := by
  induction a generalizing b with
  | nil => simp [common]
  | cons x rest ih =>
    cases b with
    | nil => simp [common]
    | cons y rest' =>
      rw [common]
      split
      · next same => rw [same, List.take_succ_cons, List.take_succ_cons, ih]
      · rfl

theorem common_le (a b : List Component) : common a b ≤ a.length ∧ common a b ≤ b.length := by
  induction a generalizing b with
  | nil => simp [common]
  | cons x rest ih =>
    cases b with
    | nil => simp [common]
    | cons y rest' =>
      rw [common]
      split
      · have shorter := ih rest'
        simp only [List.length_cons]
        omega
      · simp

/-- Names share their front with the folder, and do not lead to it or above it. -/
theorem exists_shared (below : ¬names <+: dir) : ∃ k,
    common (dir.map .name) (names.map .name) = k ∧ k ≤ dir.length ∧ k < names.length ∧
      dir.take k = names.take k := by
  obtain ⟨inDir, inNames⟩ := common_le (dir.map .name) (names.map .name)
  have front := take_common (dir.map .name) (names.map .name)
  generalize common (dir.map .name) (names.map .name) = k at inDir inNames front
  rw [List.length_map] at inDir inNames
  have shared : dir.take k = names.take k := by
    rw [← List.map_take, ← List.map_take] at front
    exact List.map_injective_iff.mpr (fun a b same => by simpa using same) front
  refine ⟨k, rfl, inDir, Nat.lt_of_le_of_ne inNames fun whole => below ?_, shared⟩
  rw [whole, List.take_length] at shared
  exact List.prefix_iff_eq_take.mpr shared.symm

/-! ### The text of a way -/

theorem named_ofNames (proper : ∀ n ∈ names, IsEntryName n) :
    named (ofNames true names) = .top :: names.map .name := by
  rw [named, components_ofNames proper]
  simp

/-- The pieces of the way to names of which the first `k` are shared. -/
def wayPieces (dir names : List String) (k : Nat) : List Text :=
  List.replicate (dir.length - k) ['.', '.'] ++ (names.drop k).map String.toList

theorem way_ofNames (proper : ∀ n ∈ dir, IsEntryName n) (proper' : ∀ n ∈ names, IsEntryName n) :
    way (ofNames true dir) (ofNames true names) =
      Text.join ['/'] (wayPieces dir names (common (dir.map .name) (names.map .name))) := by
  have texts : ∀ names : List String,
      (names.map Component.name).map stepText = names.map String.toList := by
    intro names
    rw [List.map_map]
    rfl
  rw [way, named_ofNames proper, named_ofNames proper', common, if_pos rfl]
  simp only [List.length_cons, List.length_map, Nat.add_sub_add_right, List.drop_succ_cons,
    ← List.map_drop, texts]
  rfl

/-- The steps of pieces that may have got a dot in front of them. -/
theorem components_headed {pieces : List Text} (whole : ∀ p ∈ pieces, '/' ∉ p) {t : Text}
    (text : t = Text.join ['/'] pieces) :
    (Text.splitOn (· == '/') (if t.head? == some '.' then t else '.' :: '/' :: t)).filterMap
      component? = pieces.filterMap component? := by
  have joined : (Text.splitOn (· == '/') t).filterMap component? = pieces.filterMap component? := by
    cases pieces with
    | nil => simp [text, Text.join, Text.splitOn, component?, isIdle]
    | cons p rest => rw [text, Text.splitOn_join (by simp) whole]
  split
  · exact joined
  · have dot : Text.splitOn (· == '/') (['.'] ++ '/' :: t) =
        Text.splitOn (· == '/') ['.'] ++ Text.splitOn (· == '/') t :=
      Text.splitOn_append_cons (by simp) _ _
    rw [List.singleton_append] at dot
    rw [dot, List.filterMap_append, joined]
    simp [Text.splitOn, component?, isIdle]

/-- A way is followed from the folder to the names that it was made from. -/
theorem base?_headed {k : Nat} {n : String} (proper : ∀ m ∈ dir ++ [n], IsEntryName m)
    (proper' : ∀ m ∈ names, IsEntryName m) (short : k ≤ dir.length)
    (shared : dir.take k = names.take k) {t : Text}
    (text : t = Text.join ['/'] (wayPieces dir names k)) :
    base? config root (ofNames true (dir ++ [n]))
        (String.ofList (if t.head? == some '.' then t else '.' :: '/' :: t)) =
      some (ofNames true names) := by
  have folder : ∀ m ∈ dir, IsEntryName m := fun m member => proper m (by simp [member])
  have whole : ∀ p ∈ wayPieces dir names k, '/' ∉ p := by
    intro p member
    rcases List.mem_append.mp member with member | member
    · rw [List.eq_of_mem_replicate member]
      simp
    · obtain ⟨m, inside, rfl⟩ := List.mem_map.mp member
      exact (proper' m (List.mem_of_mem_drop inside)).whole
  have read : (wayPieces dir names k).filterMap component? =
      List.replicate (dir.length - k) .up ++ (names.drop k).map .name := by
    have up : component? ['.', '.'] = some .up := rfl
    rw [wayPieces, List.filterMap_append, List.filterMap_replicate_of_some up, List.filterMap_map,
      ← List.filterMap_eq_map']
    refine congrArg _ (List.filterMap_congr fun m member => ?_)
    exact (proper' m (List.mem_of_mem_drop member)).step
  have led : namesOf (.top :: dir.map .name ++ (wayPieces dir names k).filterMap component?) =
      names := by
    have start : namesOf (.top :: dir.map .name) = dir := foldl_follow_names []
    rw [namesOf_append, start, read, List.foldl_append, foldl_follow_up, foldl_follow_names,
      Nat.sub_sub_self short, shared, List.take_append_drop]
  have steps := components_headed whole text
  have dot : (if t.head? == some '.' then t else '.' :: '/' :: t).head? = some '.' := by
    split
    · next head => exact eq_of_beq head
    · rfl
  generalize (if t.head? == some '.' then t else '.' :: '/' :: t) = spec at steps dot
  have slash : spec.head? ≠ some '/' := by simp [dot]
  have top := isAbsolute_ofNames folder true
  have joined := components_join top slash
  rw [components_ofNames folder, steps] at joined
  have absolute : ((ofNames true dir).join ⟨String.ofList spec⟩).isAbsolute = true :=
    isAbsolute_of_head? (by rw [joined]; rfl)
  rw [base?, if_pos (by simp [dot]), parent?_ofNames proper, Option.map_some, normal, absolute, joined,
    led]

/-! ### The extension -/

theorem join_concat_append (pieces : List Text) (a b : Text) :
    Text.join ['/'] (pieces ++ [a ++ b]) = Text.join ['/'] (pieces ++ [a]) ++ b := by
  induction pieces with
  | nil => simp [Text.join]
  | cons p rest ih => cases rest <;> simp_all [Text.join, List.intercalate_cons_cons]

theorem dropExtension_append (extension : String) (t : Text) :
    dropExtension extension (t ++ extension.toList) = t := by
  have back : (t ++ extension.toList).finishesWith extension.toList = true :=
    List.isSuffixOf_iff_suffix.mpr (List.suffix_append ..)
  simp [dropExtension, Text.dropBack?, back]

/-- A name without the extension ends no way that has it. -/
theorem dropExtension_eq_self {extension : String} (whole : '/' ∉ extension.toList) {name : Text}
    (other : ¬extension.toList <:+ name) (pieces : List Text) :
    dropExtension extension (Text.join ['/'] (pieces ++ [name])) =
      Text.join ['/'] (pieces ++ [name]) := by
  have split : Text.join ['/'] (pieces ++ [name]) = name ∨
      ∃ front, Text.join ['/'] (pieces ++ [name]) = front ++ '/' :: name := by
    induction pieces with
    | nil => exact .inl (by simp [Text.join])
    | cons p rest ih =>
      obtain ⟨q, more, behind⟩ := List.exists_cons_of_ne_nil (l := rest ++ [name]) (by simp)
      refine .inr ?_
      rw [List.cons_append, Text.join, behind, List.intercalate_cons_cons, ← behind]
      rcases ih with alone | ⟨front, inside⟩
      · exact ⟨p, by simpa [Text.join] using alone⟩
      · exact ⟨p ++ '/' :: front, by simpa [Text.join] using inside⟩
  have differs : ¬extension.toList <:+ Text.join ['/'] (pieces ++ [name]) := by
    intro ends_
    rcases split with alone | ⟨front, inside⟩
    · exact other (alone ▸ ends_)
    · rw [inside] at ends_
      rcases List.suffix_or_suffix_of_suffix ends_ (List.suffix_append front _) with short | long
      · rcases List.suffix_cons_iff.mp short with same | short
        · exact whole (by rw [same]; simp)
        · exact other short
      · exact whole (long.subset (by simp))
  have no : (Text.join ['/'] (pieces ++ [name])).finishesWith extension.toList = false := by
    rw [Text.finishesWith, Bool.eq_false_iff, ne_eq, List.isSuffixOf_iff_suffix]
    exact differs
  simp [dropExtension, Text.dropBack?, no]

theorem withExtension_ofNames (stem : String) :
    withExtension config (ofNames true (front ++ [stem])) =
      ofNames true (front ++ [stem ++ config.sourceExtension]) := by
  have text := join_concat_append (front.map String.toList) stem.toList
    config.sourceExtension.toList
  simp only [withExtension, ofNames, ofPieces, List.map_append, List.map_singleton,
    String.toList_append, text, Path.mk.injEq, ← String.toList_inj]
  simp

/-! ### There and back -/

section
variable {n name : String} (proper : ∀ m ∈ dir ++ [n], IsEntryName m)
  (proper' : ∀ m ∈ front ++ [name], IsEntryName m) (below : ¬front ++ [name] <+: dir)
include proper proper' below

/-- If what is left of the last piece is a name, the way leads to that name in the same folder. -/
theorem base?_relative {left : String} (left_proper : IsEntryName left)
    (cut : ∀ pieces : List Text, dropExtension config.sourceExtension
      (Text.join ['/'] (pieces ++ [name.toList])) = Text.join ['/'] (pieces ++ [left.toList])) :
    base? config root (ofNames true (dir ++ [n])) (relative config.sourceExtension
        (ofNames true (dir ++ [n])) (ofNames true (front ++ [name]))) =
      some (ofNames true (front ++ [left])) := by
  have folder : ∀ m ∈ dir, IsEntryName m := fun m member => proper m (by simp [member])
  have names : ∀ m ∈ front ++ [left], IsEntryName m := by
    intro m member
    rcases List.mem_append.mp member with member | member
    · exact proper' m (by simp [member])
    · rwa [List.mem_singleton.mp member]
  obtain ⟨k, shared_eq, short, less, shared⟩ := exists_shared below
  have le : k ≤ front.length := by
    rw [List.length_append, List.length_singleton] at less
    omega
  have shared' : dir.take k = (front ++ [left]).take k := by
    rw [shared, List.take_append_of_le_length le, List.take_append_of_le_length le]
  have pieces : ∀ last : String, wayPieces dir (front ++ [last]) k =
      wayPieces dir front k ++ [last.toList] := by
    intro last
    rw [wayPieces, wayPieces, List.drop_append_of_le_length le]
    simp
  have back : base? config root (ofNames true (dir ++ [n])) _ = some (ofNames true (front ++ [left])) :=
    base?_headed proper names short shared' rfl
  rwa [relative, parent?_ofNames proper, Option.getD_some, way_ofNames folder proper', shared_eq,
    pieces, cut, ← pieces]

end

theorem isUnder_ofNames (proper : ∀ m ∈ dir, IsEntryName m) (proper' : ∀ m ∈ names, IsEntryName m) :
    (ofNames true dir).isUnder (ofNames true names) = true ↔ names <+: dir := by
  rw [isUnder, components_ofNames proper, components_ofNames proper', List.isPrefixOf_iff_prefix,
    List.prefix_cons_inj, List.prefix_map_iff]
  constructor
  · rintro ⟨l, front, same⟩
    rwa [List.map_injective_iff.mpr (fun a b same => by simpa using same) same]
  · exact fun front => ⟨names, front, rfl⟩

theorem of_eq_relative (style : config.importStyle = .relative) (importer file : Path) :
    of config root importer file = relative config.sourceExtension importer file := by
  rw [of, style]

section
variable {importer folder file : Path} (root : Path)
  (placed : importer.isAbsolute = true ∧ importer.IsNormal)
  (placed' : file.isAbsolute = true ∧ file.IsNormal)
  (parent : importer.parent? = some folder) (outside : folder.isUnder file = false)
include placed placed' parent outside

theorem exists_base?_of_cut {name left : String} (named : file.fileName? = some name)
    (left_proper : IsEntryName left)
    (cut : ∀ pieces : List Text, dropExtension config.sourceExtension
      (Text.join ['/'] (pieces ++ [name.toList])) = Text.join ['/'] (pieces ++ [left.toList])) :
    ∃ front, file = ofNames true (front ++ [name]) ∧
      (∀ m ∈ front ++ [name], IsEntryName m) ∧
      base? config root importer (relative config.sourceExtension importer file) =
        some (ofNames true (front ++ [left])) := by
  obtain ⟨dir, n, proper, rfl, rfl⟩ := placed.2.exists_of_parent? placed.1 parent
  obtain ⟨front, proper', rfl⟩ := placed'.2.exists_of_fileName? placed'.1 named
  have below : ¬front ++ [name] <+: dir := by
    rw [← isUnder_ofNames (fun m member => proper m (by simp [member])) proper', outside]
    simp
  exact ⟨front, rfl, proper', base?_relative proper proper' below left_proper cut⟩

/-- The specifier of a file with the source extension is read back as the path without it. -/
theorem exists_base?_of_stem {stem : String}
    (named : file.fileName? = some (stem ++ config.sourceExtension)) (proper : IsEntryName stem) :
    ∃ base, base? config root importer (relative config.sourceExtension importer file) = some base ∧
      withExtension config base = file := by
  have cut : ∀ pieces : List Text, dropExtension config.sourceExtension
      (Text.join ['/'] (pieces ++ [(stem ++ config.sourceExtension).toList])) =
        Text.join ['/'] (pieces ++ [stem.toList]) := by
    intro pieces
    rw [String.toList_append, join_concat_append, dropExtension_append]
  obtain ⟨front, rfl, _, based⟩ :=
    exists_base?_of_cut root placed placed' parent outside named proper cut
  exact ⟨_, based, withExtension_ofNames stem⟩

/-- The specifier of a file stands for the file, whether its name has the source extension or not. -/
theorem exists_base?_matches (whole : '/' ∉ config.sourceExtension.toList) {name : String}
    (named : file.fileName? = some name)
    (stem : ∀ stem, name = stem ++ config.sourceExtension → IsEntryName stem) :
    ∃ base, base? config root importer (relative config.sourceExtension importer file) = some base ∧
      baseMatches config base file = true := by
  by_cases ends_ : config.sourceExtension.toList <:+ name.toList
  · obtain ⟨front, split⟩ := ends_
    have name_eq : name = String.ofList front ++ config.sourceExtension := by
      rw [← String.toList_inj, String.toList_append, String.toList_ofList, split]
    obtain ⟨base, based, same⟩ := exists_base?_of_stem root placed placed' parent outside
      (name_eq ▸ named) (stem _ name_eq)
    have normal : file.normal = file := placed'.2
    exact ⟨base, based, by simp [baseMatches, same, normal]⟩
  · obtain ⟨_, proper, _⟩ := placed'.2.exists_of_fileName? placed'.1 named
    obtain ⟨front, rfl, all, based⟩ := exists_base?_of_cut root placed placed' parent outside named
      (proper name (by simp)) (dropExtension_eq_self whole ends_)
    exact ⟨_, based, by simp [baseMatches, normal_ofNames all, same]⟩

end

end Specifier

/-- On a disk a file lies in a folder, and no file lies above it. -/
theorem Disk.exists_parent?_of_isFile {d : Disk} {p : Path} (placed : p.isAbsolute = true ∧ p.IsNormal)
    (file : d.isFile p = true) : ∃ folder, p.parent? = some folder ∧
      ∀ q : Path, q.isAbsolute = true ∧ q.IsNormal → d.isFile q = true → folder.isUnder q = false := by
  have stands : ∀ {p : Path}, p.isAbsolute = true ∧ p.IsNormal → d.isFile p = true →
      ∃ names, (∀ n ∈ names, IsEntryName n) ∧ p = .ofNames true names ∧
        ∃ f, d.top.shape names = some (some f) := by
    intro p placed file
    obtain ⟨names, f, led, there⟩ := isFile_iff.mp file
    refine ⟨names, ?_, ?_, f, there⟩
    · rw [names_of_locate placed.1 led]
      exact Path.isEntryName_of_mem_namesOf
    · rw [names_of_locate placed.1 led, ← placed.1]
      exact placed.2.symm
  obtain ⟨names, proper, rfl, f, there⟩ := stands placed file
  rcases List.eq_nil_or_concat' names with rfl | ⟨dir, n, rfl⟩
  · simp at there
  · refine ⟨_, Path.parent?_ofNames proper, fun q placed' file' => ?_⟩
    obtain ⟨names', proper', rfl, f', there'⟩ := stands placed' file'
    rw [Bool.eq_false_iff, ne_eq,
      Specifier.isUnder_ofNames (fun m member => proper m (by simp [member])) proper']
    rintro ⟨more, rfl⟩
    rw [List.append_assoc] at there
    have folder := Folder.shape_of_append there (by simp)
    simp [there'] at folder

end Registrar
