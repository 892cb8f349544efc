import Registrar.Proofs.Registry.Fragment
import Registrar.Proofs.Registry.Imported
import Registrar.Proofs.Workspace.Agreement
import Registrar.Proofs.Workspace.Provided

/-!
Reading a written import back. The specifier stands between quotation marks as it is, and the pattern of
imports stops at either mark: the line is read as it was written if and only if the way to the helper
holds neither. Then the next import goes behind the line, and a helper that is there is no orphan.
-/

namespace Registrar

open Recognition Pattern

/-- What is read off the line that imports one class is what was written. -/
structure Zones.ReadsBack (z : Zones) (line : Text) (className specifier : String) (i : Import) : Prop where
  only : z.imports = [i]
  undefaulted : i.default? = none
  bindings : i.bindings = [⟨className, className, className⟩]
  specifier : i.specifier = specifier
  whole : i.span = ⟨0, line.size⟩

namespace Source

variable {c specifier : String} {i : Import}

theorem toList_importLine (name specifier : String) :
    (importLine name specifier).toList = importText false name.toList specifier.toList := by
  unfold importLine importText importLead
  simp [braced, typeWord]

/-- A line without quotation marks in the specifier is read as it was written. -/
theorem readsBack_importLine (named : isIdentifier c.toList = true) (some_ : specifier.toList ≠ [])
    (unquoted : ∀ q ∈ specifier.toList, isQuote q = false) :
    (Zones.ofText (importLine c specifier).toList).ReadsBack (importLine c specifier).toList c specifier
      (Part.importAt 0 false c specifier) := by
  obtain ⟨ms, scan, read⟩ : ∃ ms, Scan importStatement (.between [] ((importLine c specifier).toList ++ [])) ms
      (.between ([] ++ (importLine c specifier).toList) []) ∧
        ms.filterMap Zones.import? = [Part.importAt 0 false c specifier] := by
    rw [toList_importLine]
    exact Part.exists_scan_importText false Text.atLine_nil named some_ unquoted
  rw [List.append_nil, List.nil_append] at scan
  have ended : importStatement.Refuses (importLine c specifier).toList [] := refuses_keyword_nil (by simp)
  have found := scan.findAll_eq ended.matchAt?
  refine ⟨?_, rfl, rfl, rfl, ?_⟩
  · rw [Zones.ofText, found, read]
  · rw [Part.importAt, Nat.zero_add, toList_importLine]

/-- No import has a quotation mark in its specifier. -/
theorem unquoted_of_mem_imports {t : Text} (member : i ∈ (Zones.ofText t).imports) :
    ∀ q ∈ i.specifier.toList, isQuote q = false := by
  obtain ⟨others, later, split⟩ := List.append_of_mem member
  obtain ⟨x, s, tail, rest, at_⟩ := Zones.exists_standsIn split
  rw [at_.specifier]
  exact at_.stands.unquoted

end Source

namespace Specifier

section
variable {config : Config} {importer folder file : Path} (root : Path)
  (placed : importer.isAbsolute = true ∧ importer.IsNormal)
  (placed' : file.isAbsolute = true ∧ file.IsNormal)
  (parent : importer.parent? = some folder) (outside : folder.isUnder file = false)
include placed placed' parent outside

/-- The specifier of a file is read back as a path for which the file is looked up. -/
theorem exists_base?_target (whole : '/' ∉ config.sourceExtension.toList) {name : String}
    (named : file.fileName? = some name)
    (stem : ∀ stem, name = stem ++ config.sourceExtension → IsEntryName stem) :
    ∃ base, base? config root importer (relative config.sourceExtension importer file) = some base ∧
      file ∈ targets config base := by
  by_cases ends_ : config.sourceExtension.toList <:+ name.toList
  · obtain ⟨front, split⟩ := ends_
    have name_eq : name = String.ofList front ++ config.sourceExtension := by
      rw [← String.toList_inj, String.toList_append, String.toList_ofList, split]
    obtain ⟨base, based, same⟩ := exists_base?_of_stem root placed placed' parent outside
      (name_eq ▸ named) (stem _ name_eq)
    exact ⟨base, based, by simp [targets, same]⟩
  · obtain ⟨_, proper, _⟩ := placed'.2.exists_of_fileName? placed'.1 named
    obtain ⟨front, rfl, all, based⟩ := exists_base?_of_cut root placed placed' parent outside named
      (proper name (by simp)) (dropExtension_eq_self whole ends_)
    exact ⟨_, based, by simp [targets]⟩

end

end Specifier

namespace Workspace

variable {w : Workspace} {c : String} {registry helper : Path}

/-- An import from a file that is there makes no orphan of its class. -/
theorem ne_of_mem_orphansIn_of_isFile {z : Zones} {i : Import} (whole : '/' ∉ w.config.sourceExtension.toList)
    (placed : registry.isAbsolute = true ∧ registry.IsNormal) (there : w.disk.isFile registry = true)
    (placed' : helper.isAbsolute = true ∧ helper.IsNormal) (there' : w.disk.isFile helper = true)
    (stem : ∀ stem, helper.fileName? = some (stem ++ w.config.sourceExtension) → IsEntryName stem)
    (imported : z.importOf? c = some i)
    (specifier : i.specifier = Specifier.relative w.config.sourceExtension registry helper) :
    ∀ o ∈ w.orphansIn registry z, o.className ≠ c := by
  obtain ⟨folder, parent, apart⟩ := Disk.exists_parent?_of_isFile placed there
  have outside := apart helper placed' there'
  obtain ⟨name, named⟩ := Specifier.exists_fileName? placed placed' parent outside
  obtain ⟨base, based, among⟩ := Specifier.exists_base?_target w.root placed placed' parent outside whole
    named fun s same => stem s (by rw [named, same])
  have found : (w.target? base).isSome := List.find?_isSome.mpr ⟨helper, among, there'⟩
  obtain ⟨file, found⟩ := Option.isSome_iff_exists.mp found
  have resolved : w.helperFile? registry z c = some file := by
    rw [helperFile?, importBase?, imported, Option.bind_some, specifier, based, Option.bind_some, found]
  exact fun o orphan => ne_of_mem_orphansIn resolved orphan

/-- A written import line is read back as written if and only if its specifier holds no quotation mark;
the next import goes behind it then, and it makes no orphan of a helper that is there. -/
theorem readsBack_importLine_iff (style : w.config.importStyle = .relative)
    (named : isIdentifier c.toList = true) (registry helper : Path) :
    let specifier := Specifier.of w.config w.root registry helper
    let line := (Source.importLine c specifier).toList
    ((∃ i, (Zones.ofText line).ReadsBack line c specifier i) ↔ ∀ q ∈ specifier.toList, isQuote q = false) ∧
      ∀ i, (Zones.ofText line).ReadsBack line c specifier i →
        (∀ context, (Anchors.ofText line context).imports = Text.size line) ∧
        ('/' ∉ w.config.sourceExtension.toList →
          registry.isAbsolute = true ∧ registry.IsNormal → w.disk.isFile registry = true →
          helper.isAbsolute = true ∧ helper.IsNormal → w.disk.isFile helper = true →
          (∀ stem, helper.fileName? = some (stem ++ w.config.sourceExtension) → IsEntryName stem) →
          ∀ z j, z.importOf? c = some j → i.Agrees j → ∀ o ∈ w.orphansIn registry z, o.className ≠ c) := by
  intro specifier line
  have relative : specifier = Specifier.relative w.config.sourceExtension registry helper :=
    Specifier.of_eq_relative style registry helper
  refine ⟨⟨?_, ?_⟩, fun i back => ⟨fun context => ?_, ?_⟩⟩
  · rintro ⟨i, back⟩
    have member : i ∈ (Zones.ofText line).imports := by simp [back.only]
    exact back.specifier ▸ Source.unquoted_of_mem_imports member
  · intro unquoted
    have some_ : specifier.toList ≠ [] := by
      rw [relative]
      exact Specifier.relative_ne_nil _ _ _
    exact ⟨_, Source.readsBack_importLine named some_ unquoted⟩
  · simp [Anchors.ofText, Zones.lastImportEnd, back.only, back.whole]
  · intro whole placed there placed' there' stem z j imported agrees
    refine ne_of_mem_orphansIn_of_isFile whole placed there placed' there' stem imported ?_
    rw [agrees.specifier, back.specifier, relative]

/-- A folder with a line feed in its name is read back, one with a quotation mark is not. -/
theorem readsBack_importLine_iff_feed :
    let line := (Source.importLine "Login" "./a\nb/login.page").toList
    let quoted := (Source.importLine "Login" "./o'a/login.page").toList
    (∃ i, (Zones.ofText line).ReadsBack line "Login" "./a\nb/login.page" i ∧
        ∀ context, (Anchors.ofText line context).imports = Text.size line) ∧
      ¬∃ i, (Zones.ofText quoted).ReadsBack quoted "Login" "./o'a/login.page" i := by
  intro line quoted
  let w : Workspace := ⟨{}, ⟨"/w"⟩, {}⟩
  have named : isIdentifier "Login".toList = true := by decide
  have way : Specifier.of w.config w.root ⟨"/w/site.ts"⟩ ⟨"/w/a\nb/login.page.ts"⟩ = "./a\nb/login.page" := by
    decide +kernel
  have way' : Specifier.of w.config w.root ⟨"/w/site.ts"⟩ ⟨"/w/o'a/login.page.ts"⟩ = "./o'a/login.page" := by
    decide +kernel
  have read := readsBack_importLine_iff (w := w) rfl named ⟨"/w/site.ts"⟩ ⟨"/w/a\nb/login.page.ts"⟩
  have unread := readsBack_importLine_iff (w := w) rfl named ⟨"/w/site.ts"⟩ ⟨"/w/o'a/login.page.ts"⟩
  simp only [way] at read
  simp only [way'] at unread
  constructor
  · obtain ⟨i, back⟩ := read.1.mpr (by simp [isQuote])
    exact ⟨i, back, (read.2 i back).1⟩
  · exact fun back => absurd (unread.1.mp back '\'' (by simp)) (by decide)

end Workspace
end Registrar
