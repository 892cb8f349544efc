import Registrar.Proofs.Disk.Again
import Registrar.Proofs.Registry.Used
import Registrar.Proofs.Specifier.Return
import Registrar.Workspace.Change

/-!
The accessor in the file that calls it. After a helper has been used in a file, an import of the file
binds the accessor and leads to the registry, provided that a name the file had bound already was that of
the registry's accessor.
-/

namespace Registrar

open Recognition Text

namespace Specifier

variable {config : Config} {importer file folder : Path}

/-! ### The signs of a relative specifier -/

theorem mem_dropExtension {extension : String} {t : Text} {c : Char}
    (member : c ∈ dropExtension extension t) : c ∈ t := by
  rw [dropExtension, Text.dropBack?] at member
  split at member
  · exact List.mem_of_mem_take member
  · exact member

/-- Beside dots and slashes a relative specifier has the characters of the path. -/
theorem mem_relative {extension : String} (placed : importer.isAbsolute = true ∧ importer.IsNormal)
    (placed' : file.isAbsolute = true ∧ file.IsNormal) (parent : importer.parent? = some folder) {c : Char}
    (member : c ∈ (relative extension importer file).toList) :
    c = '.' ∨ c = '/' ∨ c ∈ file.text.toList := by
  obtain ⟨dir, n, proper, rfl, rfl⟩ := placed.2.exists_of_parent? placed.1 parent
  obtain ⟨names, proper', rfl⟩ := placed'.2.exists_names placed'.1
  have inWay : c ∈ way (.ofNames true dir) (.ofNames true names) →
      c = '.' ∨ c = '/' ∨ c ∈ (Path.ofNames true names).text.toList := by
    intro member
    rw [way_ofNames (fun m among => proper m (by simp [among])) proper'] at member
    rcases Text.mem_of_mem_join member with slash | ⟨piece, among, inside⟩
    · exact .inr (.inl (List.mem_singleton.mp slash))
    · rcases List.mem_append.mp among with among | among
      · rw [List.eq_of_mem_replicate among] at inside
        exact .inl (by simpa using inside)
      · obtain ⟨m, below, rfl⟩ := List.mem_map.mp among
        have named : c ∈ Text.join ['/'] (names.map String.toList) :=
          Text.mem_join (List.mem_map_of_mem (List.mem_of_mem_drop below)) inside
        exact .inr (.inr (by simp [Path.ofNames, Path.ofPieces, named]))
  rw [relative, String.toList_ofList, Path.parent?_ofNames proper, Option.getD_some] at member
  split at member
  · exact inWay (mem_dropExtension member)
  · rcases List.mem_cons.mp member with rfl | member
    · exact .inl rfl
    · rcases List.mem_cons.mp member with rfl | member
      · exact .inr (.inl rfl)
      · exact inWay (mem_dropExtension member)

theorem unquoted_relative {extension : String} (placed : importer.isAbsolute = true ∧ importer.IsNormal)
    (placed' : file.isAbsolute = true ∧ file.IsNormal) (parent : importer.parent? = some folder)
    (unquoted : ∀ c ∈ file.text.toList, isQuote c = false) :
    ∀ c ∈ (relative extension importer file).toList, isQuote c = false := by
  intro c member
  rcases mem_relative placed placed' parent member with rfl | rfl | inside
  · rfl
  · rfl
  · exact unquoted c inside

/-- A path that the folder of a file does not lie under has a name. -/
theorem exists_fileName? (placed : importer.isAbsolute = true ∧ importer.IsNormal)
    (placed' : file.isAbsolute = true ∧ file.IsNormal) (parent : importer.parent? = some folder)
    (outside : folder.isUnder file = false) : ∃ name, file.fileName? = some name := by
  obtain ⟨dir, n, proper, rfl, rfl⟩ := placed.2.exists_of_parent? placed.1 parent
  obtain ⟨names, proper', rfl⟩ := placed'.2.exists_names placed'.1
  rcases List.eq_nil_or_concat' names with rfl | ⟨front, name, rfl⟩
  · have under := (isUnder_ofNames (fun m among => proper m (by simp [among])) proper').mpr
      (List.nil_prefix (l := dir))
    simp [under] at outside
  · exact ⟨name, Path.fileName?_ofNames proper'⟩

end Specifier

/-! ### Imports of the registry -/

/-- An import binds a name in the importing file and its specifier leads to the file. -/
def Import.Provides (config : Config) (root importer file : Path) (name : String) (i : Import) : Prop :=
  (i.default? = some name ∨ ∃ b ∈ i.bindings, b.bound = name) ∧
    ∃ base, Specifier.base? config root importer i.specifier = some base ∧
      Specifier.baseMatches config base file = true

namespace Import

variable {config : Config} {root importer file : Path} {name : String} {i j : Import}

theorem Provides.of_agrees (provides : i.Provides config root importer file name) (agrees : i.Agrees j) :
    j.Provides config root importer file name := by
  unfold Provides at *
  rwa [agrees.default?, agrees.bindings, agrees.specifier]

end Import

namespace Workspace

variable {w : Workspace} {file registry : Path} {line : Nat} {accessor className : String} {t : Text}
  {disk : Disk}

/-- What the file says after a helper has been used in it. -/
theorem readText_of_use (read : w.read file = .ok t)
    (used : w.use file line registry accessor className = .ok disk) :
    disk.readText file = .ok (Usage.insert t line (Specifier.of w.config w.root file registry) accessor
      className) := by
  rw [Workspace.use, read] at used
  have written : w.write file _ = .ok disk := used
  rw [Workspace.write] at written
  cases wrote : w.disk.write file (Usage.insert t line (Specifier.of w.config w.root file registry)
      accessor className) with
  | error why => simp [wrote, Except.mapError] at written
  | ok d =>
    obtain rfl : d = disk := by simpa [wrote, Except.mapError] using written
    exact Disk.readText_of_write wrote

/-- After a helper has been used in a file, an import of the file binds the accessor and leads to the
registry. A name that the file has bound before has to be that of the registry's accessor, what is left
of the registry's name without the extension has to be a name, and an import left open before the last one
would take up the new line. -/
theorem exists_provides_of_use (style : w.config.importStyle = .relative)
    (whole : '/' ∉ w.config.sourceExtension.toList) (placed : file.isAbsolute = true ∧ file.IsNormal)
    (placed' : registry.isAbsolute = true ∧ registry.IsNormal)
    (unquoted : ∀ c ∈ registry.text.toList, isQuote c = false)
    (named : isIdentifier accessor.toList = true)
    (outside : ∀ folder, file.parent? = some folder → folder.isUnder registry = false)
    (stem : ∀ stem, registry.fileName? = some (stem ++ w.config.sourceExtension) → IsEntryName stem)
    (read : w.read file = .ok t)
    (known : (Zones.ofText t).importsName accessor = true →
      ∃ i ∈ (Zones.ofText t).imports, i.Provides w.config w.root file registry accessor)
    (closed : ∀ i, (Zones.ofText t).imports.getLast? = some i → i.bindingsSpan = none →
      Shut '\x7b' '\x7d' (t.before i.span.start))
    (used : w.use file line registry accessor className = .ok disk) :
    ∃ t', disk.readText file = .ok t' ∧
      ∃ i ∈ (Zones.ofText t').imports, i.Provides w.config w.root file registry accessor := by
  refine ⟨_, readText_of_use read used, ?_⟩
  cases bound : (Zones.ofText t).importsName accessor with
  | true =>
    obtain ⟨i, member, provides⟩ := known bound
    obtain ⟨j, kept, agrees⟩ := Usage.exists_agreeing_of_insert _ _ _ bound closed i member
    exact ⟨j, kept, provides.of_agrees agrees⟩
  | false =>
    obtain ⟨folder, parent⟩ : ∃ folder, file.parent? = some folder := by
      cases text : w.disk.readText file with
      | error why => simp [Workspace.read, text, Except.mapError] at read
      | ok t =>
        obtain ⟨folder, parent, -⟩ :=
          Disk.exists_parent?_of_isFile placed (Disk.isFile_of_readText text)
        exact ⟨folder, parent⟩
    obtain ⟨name, called⟩ := Specifier.exists_fileName? placed placed' parent (outside folder parent)
    obtain ⟨base, based, matches_⟩ := Specifier.exists_base?_matches w.root placed placed' parent
      (outside folder parent) whole called fun s same => stem s (same ▸ called)
    rw [Specifier.of_eq_relative style]
    obtain ⟨j, member, specifier, b, among, rfl⟩ := Usage.exists_binding_of_insert line className
      bound named (Specifier.relative_ne_nil w.config.sourceExtension file registry)
      (Specifier.unquoted_relative placed placed' parent unquoted) closed
    exact ⟨j, member, .inr ⟨b, among, rfl⟩, base, specifier ▸ based, matches_⟩

/-- A helper is used in a file that has an import from another module: behind it comes the import of the
accessor. -/
theorem exists_provides_of_use_behind :
    let text := "import \x7b test \x7d from '@playwright/test';\n\ntest('a', () => \x7b\n\x7d);\n".toList
    let files : Folder := .file "a.spec.ts" ⟨.text text, 0⟩ (.file "site.ts" ⟨.text [], 0⟩ .empty)
    let w : Workspace := ⟨{ top := .folder "w" files .empty }, ⟨"/w"⟩, {}⟩
    ∃ disk t', w.use ⟨"/w/a.spec.ts"⟩ 4 ⟨"/w/site.ts"⟩ "getLoginPage" "LoginPage" = .ok disk ∧
      disk.readText ⟨"/w/a.spec.ts"⟩ = .ok t' ∧ ∃ i ∈ (Zones.ofText t').imports,
        i.Provides w.config w.root ⟨"/w/a.spec.ts"⟩ ⟨"/w/site.ts"⟩ "getLoginPage" := by
  intro text files w
  obtain ⟨disk, used⟩ : ∃ disk,
      w.use ⟨"/w/a.spec.ts"⟩ 4 ⟨"/w/site.ts"⟩ "getLoginPage" "LoginPage" = .ok disk := ⟨_, rfl⟩
  have unknown : (Zones.ofText text).importsName "getLoginPage" = false := by decide +kernel
  have braced : ((Zones.ofText text).imports.getLast?.bind (·.bindingsSpan)).isSome = true := by
    decide +kernel
  have normal : Path.normal ⟨"/w/a.spec.ts"⟩ = ⟨"/w/a.spec.ts"⟩ ∧
      Path.normal ⟨"/w/site.ts"⟩ = ⟨"/w/site.ts"⟩ := by decide +kernel
  have name : (⟨"/w/site.ts"⟩ : Path).fileName? = some ("site" ++ ".ts") := by decide +kernel
  obtain ⟨t', kept, provides⟩ := exists_provides_of_use (w := w) (t := text) rfl (by decide)
    ⟨by decide, normal.1⟩ ⟨by decide, normal.2⟩ (by simp [isQuote]) (by decide) (fun folder parent => by
      obtain rfl : (⟨"/w"⟩ : Path) = folder := Option.some.inj parent
      decide +kernel) (fun stem named => by
      have same : "site" ++ ".ts" = stem ++ ".ts" := Option.some.inj (name.symm.trans named)
      obtain rfl : "site" = stem := String.append_left_inj ".ts" |>.mp same
      decide +kernel) rfl (by simp [unknown]) (fun i last none_ => by simp [last, none_] at braced) used
  exact ⟨disk, t', used, kept, provides⟩

end Workspace
end Registrar
