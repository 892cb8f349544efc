import Registrar.Proofs.Registry.Entries
import Registrar.Proofs.Registry.Judged
import Registrar.Proofs.Specifier.Return
import Registrar.Proofs.Workspace.Kept
import Registrar.Proofs.Workspace.Validated
import Registrar.Workspace.Change

/-!
Adding, resolving and validating agree. A helper that is added is imported by the way from the registry
to its file; the way leads back to the file, so the registry resolves the class to the file, has no
orphan of the class, and the validation counts the file as registered.
-/

namespace Registrar

namespace Workspace

variable {w : Workspace} {registry file : Path} {className : String}

/-! ### Agreement -/

/-- A workspace has a helper: the registry resolves the class to the file, no orphan of the registry is
of that class, and a validation reports neither the one as an orphan nor the other as unregistered,
and counts the file as registered. -/
structure Has (w : Workspace) (registry : Path) (className : String) (file : Path) : Prop where
  resolved : ∃ t, w.read registry = .ok t ∧
    w.helperFile? registry (Zones.ofText t) className = some file
  whole : ∃ os, w.orphans registry = .ok os ∧ ∀ o ∈ os, o.className ≠ className
  imported : ∀ p report, w.validate p = .ok report → ∀ f ∈ report.findings, f.file = registry →
    ∀ specifier, f.issue ≠ .orphaned className specifier
  registered : ∀ p report, w.validate p = .ok report → ∀ f ∈ report.findings, f.file = file →
    ∀ c, f.issue ≠ .unregistered c
  counted : ∀ p report, w.validate p = .ok report → ∃ registries,
    w.settled.readRegistries w.settled.registries = .ok registries ∧
      report.diagnostics.registeredHelpers = (w.settled.counted registries).length ∧
        ∃ h ∈ w.settled.counted registries, h.file = file

/-- The walk of a validation shows a file, and its path is absolute and in normal form. -/
structure Sees (w : Workspace) (file : Path) : Prop where
  source : file ∈ w.settled.sources
  placed : file.isAbsolute = true ∧ file.IsNormal

/-- An import that leads to a file without the extension, where no file lacks it, resolves to it. -/
theorem helperFile?_of_base {z : Zones} {i : Import} {base : Path}
    (imported : z.importOf? className = some i)
    (based : Specifier.base? w.config w.root registry i.specifier = some base)
    (whole : Specifier.withExtension w.config base = file) (there : w.disk.isFile file = true)
    (bare : w.disk.isFile base = false) : w.helperFile? registry z className = some file := by
  rw [helperFile?, importBase?, imported, Option.bind_some, based, Option.bind_some, target?,
    Specifier.targets, whole]
  simp [bare, there]

/-- A class that is resolved to a file is no orphan. -/
theorem ne_of_mem_orphansIn {z : Zones} (resolved : w.helperFile? registry z className = some file)
    {o : Orphan} (orphan : o ∈ w.orphansIn registry z) : o.className ≠ className := by
  rintro rfl
  rw [helperFile?, importBase?] at resolved
  obtain ⟨⟨a, c⟩, _, read⟩ := List.mem_filterMap.mp orphan
  dsimp only at read
  cases imported : z.importOf? c with
  | none => simp [imported] at read
  | some i =>
    cases based : Specifier.base? w.config w.root registry i.specifier with
    | none => simp [imported, based] at read
    | some base =>
      simp only [imported, based] at read
      split at read
      · next gone =>
        obtain rfl := Option.some.inj read
        simp only [imported, Option.bind_some, based] at resolved
        simp [resolved] at gone
      · simp at read

theorem kind_eq_kindOf {text : Text} (read : w.disk.readText? file = some text) :
    w.kind file = kindOf w.config file text := by
  unfold kind
  rw [read]

theorem mem_helperFiles {text : Text} (source : file ∈ w.sources)
    (read : w.disk.readText? file = some text) (other : Recognition.isRegistry text = false)
    (declared : Recognition.className? text = some className) :
    ⟨file, .declared className⟩ ∈ w.helperFiles := by
  have told : kindOf w.config file text = .helper (.declared className) := by
    unfold kindOf
    rw [other, declared]
    rfl
  exact List.mem_filterMap.mpr ⟨file, source, by rw [kind_eq_kindOf read, told]⟩

/-- A registry that is shown, and hands out and resolves a class, has the helper if that is shown. -/
theorem has_of_helperFile? {t : Text} (source : registry ∈ w.settled.sources)
    (read : w.disk.readText registry = .ok t) (recognised : Recognition.isRegistry t = true)
    {a : Accessor} (handed : (a, className) ∈ (Zones.ofText t).helpers)
    (resolved : ∀ w' : Workspace, w'.disk = w.disk → w'.config = w.config →
      w'.helperFile? registry (Zones.ofText t) className = some file)
    {h : HelperFile} (helper : h ∈ w.settled.helperFiles) (same : h.file = file) :
    w.Has registry className file := by
  have read' : w.read registry = .ok t := by rw [Workspace.read, read, Except.mapError]
  have resolved' := resolved w rfl rfl
  have settled := resolved w.settled rfl rfl
  have known : registry ∈ w.settled.registries := by
    refine List.mem_filter.mpr ⟨source, ?_⟩
    have text : w.settled.disk.readText? registry = some t := Disk.readText?_eq_some_iff.mpr read
    rw [isRegistry, kind_eq_kindOf text, kindOf, if_pos recognised]
    rfl
  -- In what is read for a validation the registry stands with its text.
  have known_ : ∀ {registries : List (Path × Zones)},
      w.settled.readRegistries w.settled.registries = .ok registries →
        (registry, Zones.ofText t) ∈ registries ∧
          ∀ e ∈ registries, e.1 = registry → e.2 = Zones.ofText t := by
    intro registries readAll
    obtain ⟨of_mem, mem_of⟩ := mem_of_readRegistries readAll
    have unique : ∀ {t'}, w.settled.read registry = .ok t' → t' = t := fun again =>
      Except.ok.inj (again.symm.trans read')
    constructor
    · obtain ⟨t', again, member⟩ := mem_of registry known
      rwa [unique again] at member
    · rintro ⟨r, z⟩ member rfl
      obtain ⟨t', again, rfl⟩ := of_mem _ member
      rw [unique again]
  have hasFile : ∀ {registries : List (Path × Zones)},
      w.settled.readRegistries w.settled.registries = .ok registries →
        (w.settled.registered registries).hasFile file = true := by
    intro registries readAll
    refine List.any_eq_true.mpr ⟨file, ?_, beq_self_eq_true _⟩
    exact List.mem_flatMap.mpr ⟨_, (known_ readAll).1, List.mem_filterMap.mpr ⟨_, handed, settled⟩⟩
  refine {
    resolved := ⟨t, read', resolved'⟩
    whole := ⟨w.orphansIn registry (Zones.ofText t), by rw [orphans, read', Except.map],
      fun o => ne_of_mem_orphansIn resolved'⟩
    imported := ?_
    registered := ?_
    counted := ?_ }
  · intro p report valid f member about specifier issue
    obtain ⟨registries, readAll, orphaned, _⟩ := of_validate valid
    obtain ⟨e, inside, e_eq, o, orphan, class_⟩ := orphaned f member className specifier issue
    rw [(known_ readAll).2 e inside (e_eq.trans about), e_eq, about] at orphan
    exact ne_of_mem_orphansIn settled orphan class_
  · intro p report valid f member about c issue
    obtain ⟨registries, readAll, _, missing, _⟩ := of_validate valid
    have none_ := missing f member c issue
    rw [about, hasFile readAll] at none_
    simp at none_
  · intro p report valid
    obtain ⟨registries, readAll, _, _, count⟩ := of_validate valid
    exact ⟨registries, readAll, count, h,
      List.mem_filter.mpr ⟨helper, by rw [same]; exact hasFile readAll⟩, same⟩

/-! ### Adding -/

/-- What files come to that are offered to a registry with a text. -/
def judgements (w : Workspace) (registry : Path) (t : Text) (files : List Path) :
    List (Path × Except Skipped Entry) :=
  let host : Host := ⟨w.config, w.root, registry, t⟩
  files.zip (host.judgeAll host.zones [] (files.map (w.candidate registry)))

/-- A file is accepted alone if it offers a helper that the registry does not refuse. -/
theorem mem_judgements_singleton {s : Site} (plain : s.Plain) (config : w.config = s.frame.config)
    (root : w.root = s.root) {ls : List Listing} {t : Text} (listed : Listed s.frame ls)
    (text : t = (Layout.ofListings ls).text s.frame) (fits : s.Fits (w.candidate s.path file))
    {l : Listing} (offered : s.offered? (w.candidate s.path file) = some l)
    (free : ¬Listed.Refuses s.frame ls l.className) :
    (file, .ok (s.frame.entry l)) ∈ w.judgements s.path t [file] := by
  have host : (⟨w.config, w.root, s.path, t⟩ : Host) = s.host t := by rw [config, root]; rfl
  have judged := Site.judge_eq plain listed text (List.forall_mem_nil _) fits
  rw [offered, Option.filter_some_pos (by simpa using free), Option.map_some, toOption_eq_some_iff,
    List.map_nil] at judged
  rw [judgements, host, List.map_singleton, Host.judgeAll, judged]
  exact List.mem_singleton_self _

/-- An addition goes through if the registry can be read and written. -/
theorem exists_add {t : Text} (read : w.disk.readText registry = .ok t)
    (written : ∀ new, ∃ disk, w.disk.write registry new = .ok disk) (files : List Path) :
    ∃ report disk, w.add registry files = .ok (report, disk) := by
  simp only [add, Workspace.read, read, Except.mapError, bind, Except.bind]
  generalize (⟨w.config, w.root, registry, t⟩ : Host).add (files.map (w.candidate registry)) = result
  obtain ⟨report, new?⟩ := result
  cases new? with
  | none => exact ⟨report, w.disk, rfl⟩
  | some new =>
    obtain ⟨disk, written⟩ := written new
    exact ⟨report, disk, by simp only [writeChange, write, written, Except.mapError]; rfl⟩

theorem judge_of_mem_judgements {t : Text} {files : List Path} {e : Entry}
    (accepted : (file, .ok e) ∈ w.judgements registry t files) :
    .ok e ∈ (⟨w.config, w.root, registry, t⟩ : Host).judgeAll (Zones.ofText t) []
        (files.map (w.candidate registry)) ∧
      ∃ before_, (⟨w.config, w.root, registry, t⟩ : Host).judge (Zones.ofText t) before_
        (w.candidate registry file) = .ok e := by
  have zipped : (w.candidate registry file, .ok e) ∈ (files.map (w.candidate registry)).zip
      ((⟨w.config, w.root, registry, t⟩ : Host).judgeAll (Zones.ofText t) []
        (files.map (w.candidate registry))) := by
    rw [List.zip_map_left]
    exact List.mem_map.mpr ⟨_, accepted, rfl⟩
  exact ⟨(List.of_mem_zip zipped).2, Host.judge_of_mem_judgeAll zipped⟩

/-- An addition that accepts something writes the new text. -/
theorem of_add {t : Text} {files : List Path} {report : AdditionReport} {disk : Disk}
    (read : w.disk.readText registry = .ok t) (added : w.add registry files = .ok (report, disk))
    {e : Entry} (accepted : .ok e ∈
      (⟨w.config, w.root, registry, t⟩ : Host).judgeAll (Zones.ofText t) []
        (files.map (w.candidate registry))) :
    e.className ∈ report.added ∧ ∃ new,
      ((⟨w.config, w.root, registry, t⟩ : Host).add (files.map (w.candidate registry))).2 = some new ∧
        w.disk.write registry new = .ok disk := by
  have chosen := AdditionReport.mem_sort_iff.mpr accepted
  simp only [add, Workspace.read, read, Except.mapError, bind, Except.bind, Host.add] at added ⊢
  rw [Host.zones] at added ⊢
  generalize AdditionReport.sort ((⟨w.config, w.root, registry, t⟩ : Host).judgeAll (Zones.ofText t) []
    (files.map (w.candidate registry))) = sorted at chosen added ⊢
  have some_ : sorted.1.isEmpty = false := by
    cases list : sorted.1 with
    | nil => simp [list] at chosen
    | cons e rest => rfl
  simp only [some_, Bool.false_eq_true, if_false, writeChange, write] at added ⊢
  cases written : w.disk.write registry
      ((⟨w.config, w.root, registry, t⟩ : Host).withEntries sorted.1) with
  | error why => simp [written, Except.mapError] at added
  | ok d =>
    simp only [written, Except.mapError, pure, Except.pure, Except.ok.injEq, Prod.mk.injEq] at added
    obtain ⟨rfl, rfl⟩ := added
    exact ⟨List.mem_map_of_mem chosen, _, rfl, written⟩

/-- A file that is accepted is another one than the registry. -/
theorem apart_of_not_sameFile {d : Disk} {p q : Path} {names names' : List String} {f g : File}
    (other : d.sameFile p q = false) (led : d.locate p = .ok names) (led' : d.locate q = .ok names')
    (there : d.top.shape names = some (some f)) (there' : d.top.shape names' = some (some g)) :
    names ≠ names' := by
  rintro rfl
  have at_ := Folder.shape_eq_file_iff.mp there
  have canonical : ∀ {p : Path}, d.locate p = .ok names → d.canonical p = .ok (.ofNames true names) := by
    intro p led
    rw [Disk.canonical, led]
    simp [bind, Except.bind, at_, pure, Except.pure]
  rw [Disk.sameFile, canonical led, canonical led'] at other
  simp at other

section
variable (s : Site) (plain : s.Plain) (config : w.config = s.frame.config) (root : w.root = s.root)
  {changes : List Change} (spares : ∀ c ∈ changes, s.Spares c)
  (read : w.disk.readText s.path = .ok (s.textAfter changes))
  {files : List Path} (fits : ∀ f ∈ files, s.Fits (w.candidate s.path f))
  {report : AdditionReport} {disk : Disk} (added : w.add s.path files = .ok (report, disk))
  {e : Entry} (accepted : (file, .ok e) ∈ w.judgements s.path (s.textAfter changes) files)
include plain config root spares read fits added accepted

/-- A file that is accepted is listed: the text that is written has its class, imported by the way to
the file. -/
theorem exists_listed_of_add : e.className ∈ report.added ∧ ∃ ls, Listed s.frame ls ∧
    w.disk.write s.path ((Layout.ofListings ls).text s.frame) = .ok disk ∧
      ⟨e.className, Specifier.relative s.frame.config.sourceExtension s.path file⟩ ∈ ls := by
  obtain ⟨text, listed⟩ := Site.textAfter_of_spares plain spares
  generalize s.textAfter changes = t at read accepted text
  generalize s.rosterAfter changes = ls at text listed
  have host : (⟨w.config, w.root, s.path, t⟩ : Host) = s.host t := by rw [config, root]; rfl
  obtain ⟨zipped, _, judged⟩ := judge_of_mem_judgements accepted
  rw [host] at zipped judged
  obtain ⟨reported, new, change, written⟩ := of_add read added (by rw [host]; exact zipped)
  rw [host] at change
  -- What is put in is what is admitted to the roster.
  have fits' : ∀ c ∈ files.map (w.candidate s.path), s.Fits c := List.forall_mem_map.mpr fits
  have entries := Site.sort_judgeAll plain listed text fits' [] (by simp)
  rw [List.map_nil, List.append_nil] at entries
  obtain ⟨l, admitted, rfl⟩ := List.mem_map.mp (entries ▸ AdditionReport.mem_sort_iff.mpr zipped)
  obtain ⟨text', listed'⟩ := Site.change_of_spares plain listed (c := .add _) fits'
  rw [← text, Site.change, change, Option.getD_some] at text'
  have specifier : l.specifier = Specifier.relative s.frame.config.sourceExtension s.path file := by
    rw [← Specifier.of_eq_relative plain.relative]
    exact congrArg Entry.specifier (Host.of_judge judged).2.1
  refine ⟨reported, _, listed', text' ▸ written, ?_⟩
  rw [← specifier]
  exact List.mem_append_right _ admitted

/-- Right after an addition reports the class of a file, the workspace has that helper: it is resolved,
it is no orphan, and a validation counts it. -/
theorem has_of_add (sound : w.disk.top.Sound) (sees : w.Sees s.path) (sees' : w.Sees file)
    (stem : ∃ stem, IsEntryName stem ∧ file.fileName? = some (stem ++ w.config.sourceExtension))
    (bare : ∀ p, Specifier.withExtension w.config p = file → w.disk.isFile p = false) :
    e.className ∈ report.added ∧ { w with disk }.Has s.path e.className file := by
  obtain ⟨reported, ls, listed, written, known⟩ :=
    exists_listed_of_add s plain config root spares read fits added accepted
  obtain ⟨_, _, judged⟩ := judge_of_mem_judgements accepted
  obtain ⟨apart, -, helper, readHelper, noRegistry, declared⟩ := Host.of_judge judged
  -- The new disk
  obtain ⟨names, moment, led, there⟩ := Disk.readText_eq_ok_iff.mp read
  obtain ⟨names', moment', led', there'⟩ :=
    Disk.readText_eq_ok_iff.mp (Disk.readText?_eq_some_iff.mp readHelper)
  have other : names' ≠ names := apart_of_not_sameFile apart led' led there' there
  have alters := Disk.alters_of_write written led
  have isFile := alters.isFile_eq there
  have read' : disk.readText s.path = .ok ((Layout.ofListings ls).text s.frame) :=
    Disk.readText_eq_ok_iff.mpr ⟨names, _, alters.grows.locate led, by rw [alters.shape, if_pos rfl]⟩
  have folder : w.settled.disk.isFolder w.settled.root = true := by
    refine isFolder_of_mem_sources sees.source sees'.source ?_
    rintro rfl
    exact other (Except.ok.inj (led'.symm.trans led))
  have sources : ∀ f, f ∈ { w with disk }.settled.sources ↔ f ∈ w.settled.sources := fun f =>
    mem_sources_iff_of_rewritten (w := w.settled) sound folder alters there
  have isFile_file : disk.isFile file = true := by
    rw [isFile]
    exact Disk.isFile_iff.mpr ⟨names', _, led', there'⟩
  -- The way there and back
  obtain ⟨stem, proper, named⟩ := stem
  obtain ⟨above, parent, outside⟩ := Disk.exists_parent?_of_isFile sees.placed
    (Disk.isFile_iff.mpr ⟨names, _, led, there⟩)
  obtain ⟨i, imported, specifier⟩ := listed.exists_importOf? plain.frame known
  obtain ⟨a, handed⟩ := listed.exists_mem_helpers plain.frame known
  dsimp only at imported specifier handed
  refine ⟨reported, has_of_helperFile? (h := ⟨file, .declared e.className⟩)
    ((sources _).mpr sees.source) read' (Listed.isRegistry _ _) handed
    (fun w' disk_eq config_eq => ?_) ?_ rfl⟩
  · obtain ⟨base, based, whole⟩ := Specifier.exists_base?_of_stem w'.root sees.placed sees'.placed
      parent (outside file sees'.placed (by rw [← isFile]; exact isFile_file)) named proper
    rw [config, ← specifier] at based
    rw [config] at whole
    refine helperFile?_of_base imported (by rw [config_eq, config]; exact based) ?_ ?_ ?_
    · rw [config_eq, config]
      exact whole
    · rw [disk_eq]
      exact isFile_file
    · rw [disk_eq]
      exact (isFile base).trans (bare base (by rw [config]; exact whole))
  · have text : disk.readText? file = some helper :=
      (alters.agrees.readText? led' other).mpr readHelper
    exact mem_helperFiles ((sources _).mpr sees'.source) text noRegistry declared

end

/-- A second page is added to a registry, and the workspace has it. -/
theorem has_of_add_page :
    let site : Site := ⟨⟨{}, "Site"⟩, ⟨"/w"⟩, ⟨"/w/site.ts"⟩⟩
    let page := "export class APage \x7b\x7d\n".toList
    let other := "export class BPage \x7b\x7d\n".toList
    let t := site.textAfter [.add [⟨⟨"/w/p/b.page.ts"⟩, some other, false⟩]]
    let files := (Folder.empty.put "a.page.ts" (.file ⟨.text page, 0⟩)).put "site.ts"
      (.file ⟨.text t, 0⟩)
    let w : Workspace := ⟨{ top := Folder.empty.put "w" (.folder files) }, ⟨"/w"⟩, {}⟩
    ∃ report disk, w.add ⟨"/w/site.ts"⟩ [⟨"/w/a.page.ts"⟩] = .ok (report, disk) ∧
      "APage" ∈ report.added ∧ { w with disk }.Has ⟨"/w/site.ts"⟩ "APage" ⟨"/w/a.page.ts"⟩ := by
  intro site page other t files w
  have plain : site.Plain := Site.plain_default (by decide +kernel) _ (by decide +kernel)
  have named : isClassName "BPage".toList = true ∧ isClassName "APage".toList = true := by
    decide +kernel
  have fits : site.Fits ⟨⟨"/w/p/b.page.ts"⟩, some other, false⟩ :=
    Site.fits_of_declared rfl (by decide +kernel) named.1 (by decide +kernel)
  have spares : ∀ c ∈ [Change.add [⟨⟨"/w/p/b.page.ts"⟩, some other, false⟩]], site.Spares c := by
    simpa [Site.Spares] using fits
  have roster : site.rosterAfter [.add [⟨⟨"/w/p/b.page.ts"⟩, some other, false⟩]] =
      [⟨"BPage", "./p/b.page"⟩] := by
    decide +kernel
  obtain ⟨text, listed⟩ := Site.textAfter_of_spares plain spares
  rw [roster] at text listed
  have told : site.textAfter [.add [⟨⟨"/w/p/b.page.ts"⟩, some other, false⟩]] = t := rfl
  -- The text as it is laid out is quicker to work with.
  rw [told] at text
  clear_value t
  subst text
  have candidate : w.candidate ⟨"/w/site.ts"⟩ ⟨"/w/a.page.ts"⟩ =
      ⟨⟨"/w/a.page.ts"⟩, some page, false⟩ := by
    have read : w.disk.readText ⟨"/w/a.page.ts"⟩ = .ok page :=
      Disk.readText_eq_ok_iff.mpr ⟨["w", "a.page.ts"], 0, by decide +kernel, rfl⟩
    have other : w.disk.sameFile ⟨"/w/a.page.ts"⟩ ⟨"/w/site.ts"⟩ = false := by decide +kernel
    rw [candidate, Disk.readText?_eq_some_iff.mpr read, other]
  have fits' : site.Fits (w.candidate ⟨"/w/site.ts"⟩ ⟨"/w/a.page.ts"⟩) := by
    rw [candidate]
    exact Site.fits_of_declared rfl (by decide +kernel) named.2 (by decide +kernel)
  have offered : site.offered? ⟨⟨"/w/a.page.ts"⟩, some page, false⟩ = some ⟨"APage", "./a.page"⟩ ∧
      ¬Listed.Refuses site.frame [⟨"BPage", "./p/b.page"⟩] "APage" := by
    decide +kernel
  rw [← candidate] at offered
  have judged := mem_judgements_singleton plain rfl rfl listed rfl fits' offered.1 offered.2
  have read : w.disk.readText ⟨"/w/site.ts"⟩ =
      .ok ((Layout.ofListings [⟨"BPage", "./p/b.page"⟩]).text site.frame) :=
    Disk.readText_eq_ok_iff.mpr ⟨["w", "site.ts"], 0, by decide +kernel, rfl⟩
  obtain ⟨report, disk, added⟩ := exists_add read (fun new => ⟨_, rfl⟩) [⟨"/w/a.page.ts"⟩]
  have sound : w.disk.top.Sound := by
    have entry : ∀ n ∈ ["w", "a.page.ts", "site.ts"], IsEntryName n := by decide +kernel
    have inside : files.Sound :=
      (Folder.sound_empty.put (entry "a.page.ts" (by simp)) (by simp)).put
        (entry "site.ts" (by simp)) (by simp)
    exact Folder.sound_empty.put (entry "w" (by simp)) fun _ same => Item.folder.inj same ▸ inside
  have sources : w.settled.sources = [⟨"/w/a.page.ts"⟩, ⟨"/w/site.ts"⟩] := by decide +kernel
  have normal : Path.normal ⟨"/w/a.page.ts"⟩ = ⟨"/w/a.page.ts"⟩ ∧
      Path.normal ⟨"/w/site.ts"⟩ = ⟨"/w/site.ts"⟩ := by
    decide +kernel
  have bare : ∀ p, Specifier.withExtension w.config p = ⟨"/w/a.page.ts"⟩ →
      w.disk.isFile p = false := by
    intro p same
    have texts : p.text ++ ".ts" = "/w/a.page" ++ ".ts" := congrArg Path.text same
    rw [← String.toList_inj, String.toList_append, String.toList_append, List.append_left_inj,
      String.toList_inj] at texts
    obtain rfl : p = ⟨"/w/a.page"⟩ := by rw [← texts]
    decide +kernel
  rw [← told] at read judged
  refine ⟨report, disk, added, has_of_add site plain rfl rfl spares read (by simpa using fits') added
    judged sound ⟨by rw [sources]; exact List.mem_cons_of_mem _ (List.mem_singleton_self _),
      by decide +kernel, normal.2⟩
    ⟨by simp [sources], by decide +kernel, normal.1⟩ ⟨"a.page", by decide +kernel, by decide +kernel⟩
    bare⟩

end Workspace
end Registrar
