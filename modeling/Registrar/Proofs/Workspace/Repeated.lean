import Registrar.Proofs.Disk.Again
import Registrar.Proofs.Registry.Exported
import Registrar.Proofs.Workspace.Agreement

/-!
Adding again. Whatever the registry's file holds, what an addition puts in it is seen by the next one:
the import, the field or the accessor may escape the patterns, but the export stands on a line of its
own at the end and is found. So the same files are skipped as duplicates, and nothing is written.
-/

namespace Registrar

namespace Host

variable {h : Host} {z : Zones} {c : Candidate} {s : Skipped} {cs : List Candidate}

/-- A class whose accessor is exported is there already. -/
theorem judge_eq_duplicate {text : Text} {className : String} (apart : c.isHost = false)
    (read : c.text? = some text) (other : Recognition.isRegistry text = false)
    (declared : Recognition.className? text = some className)
    (exported : (exportSpan? h.text (Naming.accessor className)).isSome) (accepted : List Entry) :
    h.judge z accepted c = .error ⟨className, c.file, .duplicate⟩ := by
  have clash : h.clashes z accepted (h.entry c.file className) = true := by
    simp [clashes, entry, exported]
  simp only [judge, read, apart, other, declared, clash, Bool.or_self, Bool.false_eq_true, if_false,
    if_true]

/-- A candidate that is skipped whatever has been accepted is skipped at its place. -/
theorem getElem?_judgeAll (skips : ∀ accepted, h.judge z accepted c = .error s) {i : Nat}
    (at_ : cs[i]? = some c) (accepted : List Entry) :
    (h.judgeAll z accepted cs)[i]? = some (.error s) := by
  induction cs generalizing i accepted with
  | nil => simp at at_
  | cons c' rest ih =>
    cases i with
    | zero =>
      obtain rfl : c' = c := by simpa using at_
      rw [judgeAll, skips]
      rfl
    | succ i =>
      rw [judgeAll]
      split
      · exact ih (by simpa using at_) _
      · exact ih (by simpa using at_) _

/-- Candidates that are duplicates whatever has been accepted are all skipped as duplicates. -/
theorem exists_judgeAll_eq_error (skips : ∀ c ∈ cs, ∃ className, ∀ accepted,
    h.judge z accepted c = .error ⟨className, c.file, .duplicate⟩) (accepted : List Entry) :
    ∃ skipped : List Skipped, h.judgeAll z accepted cs = skipped.map .error ∧
      skipped.map (·.file) = cs.map (·.file) ∧ ∀ s ∈ skipped, s.reason = .duplicate := by
  induction cs with
  | nil => exact ⟨[], rfl, rfl, by simp⟩
  | cons c rest ih =>
    obtain ⟨className, skip⟩ := skips c (by simp)
    obtain ⟨skipped, all, places, reasons⟩ := ih fun c' member => skips c' (by simp [member])
    refine ⟨⟨className, c.file, .duplicate⟩ :: skipped, ?_, by simp [places], by simpa using reasons⟩
    rw [judgeAll, skip, all]
    rfl

/-- Where all candidates are skipped nothing is put in. -/
theorem add_eq_of_judgeAll {skipped : List Skipped}
    (all : h.judgeAll h.zones [] cs = skipped.map .error) : h.add cs = (⟨[], skipped⟩, none) := by
  simp [add, all, AdditionReport.sort, List.filterMap_map]

end Host

namespace Disk

variable {d d' : Disk} {p q : Path} {names names' : List String}

theorem canonical_eq_ok {what : Option File} (led : d.locate p = .ok names)
    (there : d.top.shape names = some what) : d.canonical p = .ok (.ofNames true names) := by
  obtain ⟨item, at_, _⟩ := Option.map_eq_some_iff.mp there
  rw [canonical, led]
  simp [bind, Except.bind, at_, pure, Except.pure]

/-- Paths that lead to something on both disks lead to the same place on the one as on the other. -/
theorem sameFile_congr {what what' : Option File} (led : d.locate p = .ok names)
    (led' : d.locate q = .ok names') (there : d.top.shape names = some what)
    (there' : d.top.shape names' = some what') (grows : Grows d d')
    (still : (d'.top.shape names).isSome) (still' : (d'.top.shape names').isSome) :
    d'.sameFile p q = d.sameFile p q := by
  obtain ⟨_, still⟩ := Option.isSome_iff_exists.mp still
  obtain ⟨_, still'⟩ := Option.isSome_iff_exists.mp still'
  rw [sameFile, sameFile, canonical_eq_ok led there, canonical_eq_ok led' there',
    canonical_eq_ok (grows.locate led) still, canonical_eq_ok (grows.locate led') still']

end Disk

namespace Workspace

variable {w : Workspace} {registry file : Path} {files : List Path} {t : Text}

theorem writeChange_eq_ok_iff {new? : Option Text} {disk : Disk} :
    w.writeChange registry new? = .ok disk ↔
      new? = none ∧ disk = w.disk ∨ ∃ t, new? = some t ∧ w.disk.write registry t = .ok disk := by
  cases new? with
  | none => simp [writeChange, eq_comm]
  | some t => cases written : w.disk.write registry t <;> simp [writeChange, write, written, Except.mapError]

/-- An addition comes to what the files are judged to be, and to the new text if any is accepted. -/
theorem add_eq_ok_iff (read : w.disk.readText registry = .ok t) {report : AdditionReport}
    {disk : Disk} : w.add registry files = .ok (report, disk) ↔
      report = ((⟨w.config, w.root, registry, t⟩ : Host).add (files.map (w.candidate registry))).1 ∧
        w.writeChange registry
          ((⟨w.config, w.root, registry, t⟩ : Host).add (files.map (w.candidate registry))).2 =
            .ok disk := by
  simp only [add, Workspace.read, read, Except.mapError, bind, Except.bind, pure, Except.pure]
  split
  · next failed => simp [failed]
  · next d changed => simp [changed, eq_comm]

theorem exists_read_of_add {report : AdditionReport} {disk : Disk}
    (added : w.add registry files = .ok (report, disk)) :
    ∃ t, w.disk.readText registry = .ok t := by
  cases read : w.disk.readText registry with
  | ok t => exact ⟨t, rfl⟩
  | error why =>
    simp [add, Workspace.read, read, Except.mapError, bind, Except.bind] at added

section
variable {report : AdditionReport} {disk : Disk} (added : w.add registry files = .ok (report, disk))
  (read : w.disk.readText registry = .ok t)
include added read

/-- An addition leaves a text in the registry's file. -/
theorem exists_readText_of_add : ∃ t', disk.readText registry = .ok t' := by
  rcases writeChange_eq_ok_iff.mp ((add_eq_ok_iff read).mp added).2 with ⟨_, rfl⟩ | ⟨t', _, written⟩
  · exact ⟨t, read⟩
  · obtain ⟨names, alters, led⟩ := Disk.exists_of_write written
    exact ⟨t', Disk.readText_eq_ok_iff.mpr ⟨names, _, led, by rw [alters.shape, if_pos rfl]⟩⟩

/-- A file whose class is added is a duplicate from then on. -/
theorem judge_again {e : Entry} (accepted : (file, .ok e) ∈ w.judgements registry t files)
    (whole : e.className.toList.getLast? ≠ some '$') {t' : Text}
    (read' : disk.readText registry = .ok t') (before_ : List Entry) :
    (⟨w.config, w.root, registry, t'⟩ : Host).judge (Zones.ofText t') before_
      ({ w with disk }.candidate registry file) = .error ⟨e.className, file, .duplicate⟩ := by
  obtain ⟨inside, _, judged⟩ := judge_of_mem_judgements accepted
  obtain ⟨apart, entry, text, readFile, other, declared⟩ := Host.of_judge judged
  obtain ⟨_, new, change, written⟩ := of_add read added inside
  -- The file stands where it stood, and the registry has its new text.
  obtain ⟨names, moment, led, there⟩ := Disk.readText_eq_ok_iff.mp read
  obtain ⟨names', moment', led', there'⟩ :=
    Disk.readText_eq_ok_iff.mp (Disk.readText?_eq_some_iff.mp readFile)
  have different : names' ≠ names := apart_of_not_sameFile apart led' led there' there
  have alters := Disk.alters_of_write written led
  have readFile' : disk.readText? file = some text :=
    (alters.agrees.readText? led' different).mpr readFile
  have apart' : disk.sameFile file registry = false := by
    rw [← apart, candidate]
    refine Disk.sameFile_congr led' led there' there alters.grows ?_ ?_
    · rw [alters.shape, if_neg different, there']
      rfl
    · rw [alters.shape, if_pos rfl]
      rfl
  obtain rfl : t' = new := by
    have text_eq : disk.readText registry = .ok new :=
      Disk.readText_eq_ok_iff.mpr ⟨names, _, alters.grows.locate led, by rw [alters.shape, if_pos rfl]⟩
    exact Except.ok.inj (read'.symm.trans text_eq)
  -- Its export is found in the text.
  have named := Recognition.isIdentifier_of_className? declared
  have exported : (exportSpan? t' (Naming.accessor e.className)).isSome := by
    simp only [Host.add] at change
    split at change
    · simp at change
    · obtain rfl := Option.some.inj change
      have accessor : e.accessor = Naming.accessor e.className := by rw [entry]; rfl
      have member := AdditionReport.mem_sort_iff.mpr inside
      rw [← accessor]
      refine Host.exportSpan?_withEntries _ member ?_ ?_ <;> rw [accessor]
      · exact Naming.isIdentifier_accessor named
      · exact Naming.any_isWord_getLast?_accessor named whole
  exact Host.judge_eq_duplicate apart' readFile' other declared exported before_

end

/-- Adding is idempotent, whatever the registry's text: a file whose class an addition has put in is
skipped as a duplicate when the same files are added again, and adding such files only puts nothing in
and leaves the disk as it is. The search for an export does not see a name that ends in a dollar sign. -/
theorem add_again {report : AdditionReport} {disk : Disk}
    (added : w.add registry files = .ok (report, disk)) :
    ∃ t t' report' disk', w.disk.readText registry = .ok t ∧ disk.readText registry = .ok t' ∧
      { w with disk }.add registry files = .ok (report', disk') ∧
      (∀ (i : Nat) (file : Path) (e : Entry), (w.judgements registry t files)[i]? = some (file, .ok e) →
        e.className.toList.getLast? ≠ some '$' →
          ({ w with disk }.judgements registry t' files)[i]? =
              some (file, .error ⟨e.className, file, .duplicate⟩) ∧
            ⟨e.className, file, .duplicate⟩ ∈ report'.skipped) ∧
      ∀ again : List Path, (∀ file ∈ again, ∃ e, (file, .ok e) ∈ w.judgements registry t files ∧
        e.className.toList.getLast? ≠ some '$') →
          ∃ skipped, { w with disk }.add registry again = .ok (⟨[], skipped⟩, disk) ∧
            skipped.map (·.file) = again ∧ ∀ s ∈ skipped, s.reason = .duplicate := by
  obtain ⟨t, read⟩ := exists_read_of_add added
  obtain ⟨t', read'⟩ := exists_readText_of_add added read
  have there : disk.isFile registry = true := by
    obtain ⟨names, moment, led, there⟩ := Disk.readText_eq_ok_iff.mp read'
    exact Disk.isFile_iff.mpr ⟨names, _, led, there⟩
  obtain ⟨report', disk', added'⟩ := exists_add (w := { w with disk }) read'
    (Disk.exists_write_of_isFile there) files
  refine ⟨t, t', report', disk', read, read', added', fun i file e accepted whole => ?_,
    fun again admitted => ?_⟩
  · have skips := judge_again added read (List.mem_of_getElem? accepted) whole read'
    obtain ⟨offered, _⟩ := List.getElem?_zip_eq_some.mp accepted
    have candidate : (files.map ({ w with disk }.candidate registry))[i]? =
        some ({ w with disk }.candidate registry file) := by
      rw [List.getElem?_map, offered]
      rfl
    have skipped := Host.getElem?_judgeAll skips candidate []
    refine ⟨List.getElem?_zip_eq_some.mpr ⟨offered, skipped⟩, ?_⟩
    rw [((add_eq_ok_iff (w := { w with disk }) read').mp added').1]
    exact List.mem_filterMap.mpr ⟨_, List.mem_of_getElem? skipped, rfl⟩
  · have skips : ∀ c ∈ again.map ({ w with disk }.candidate registry), ∃ className, ∀ before_,
        (⟨w.config, w.root, registry, t'⟩ : Host).judge (Zones.ofText t') before_ c =
          .error ⟨className, c.file, .duplicate⟩ := by
      intro c member
      obtain ⟨file, inside, rfl⟩ := List.mem_map.mp member
      obtain ⟨e, accepted, whole⟩ := admitted file inside
      exact ⟨e.className, judge_again added read accepted whole read'⟩
    obtain ⟨skipped, all, places, reasons⟩ := Host.exists_judgeAll_eq_error skips []
    have nothing : (⟨w.config, w.root, registry, t'⟩ : Host).add
        (again.map ({ w with disk }.candidate registry)) = (⟨[], skipped⟩, none) :=
      Host.add_eq_of_judgeAll all
    refine ⟨skipped, (add_eq_ok_iff (w := { w with disk }) read').mpr ?_, ?_, reasons⟩
    · rw [nothing]
      exact ⟨rfl, rfl⟩
    · simpa [candidate, Function.comp_def] using places

/-- A page is added to a text that is no registry at all: a brace that closes nothing. -/
theorem add_again_brace :
    let page := "export class APage \x7b\x7d\n".toList
    let files := (Folder.empty.put "a.page.ts" (.file ⟨.text page, 0⟩)).put "site.ts"
      (.file ⟨.text ['\x7d'], 0⟩)
    let w : Workspace := ⟨{ top := Folder.empty.put "w" (.folder files) }, ⟨"/w"⟩, {}⟩
    ∃ report disk skipped, w.add ⟨"/w/site.ts"⟩ [⟨"/w/a.page.ts"⟩] = .ok (report, disk) ∧
      { w with disk }.add ⟨"/w/site.ts"⟩ [⟨"/w/a.page.ts"⟩] = .ok (⟨[], skipped⟩, disk) ∧
        skipped.map (·.file) = [⟨"/w/a.page.ts"⟩] := by
  intro page files w
  have read : w.disk.readText ⟨"/w/site.ts"⟩ = .ok ['\x7d'] :=
    Disk.readText_eq_ok_iff.mpr ⟨["w", "site.ts"], 0, by decide +kernel, rfl⟩
  obtain ⟨report, disk, added⟩ := exists_add read (fun new => ⟨_, rfl⟩) [⟨"/w/a.page.ts"⟩]
  obtain ⟨t, _, _, _, read_, _, _, _, again⟩ := add_again added
  obtain rfl : ['\x7d'] = t := Except.ok.inj (read.symm.trans read_)
  have judged : w.judgements ⟨"/w/site.ts"⟩ ['\x7d'] [⟨"/w/a.page.ts"⟩] =
      [(⟨"/w/a.page.ts"⟩, .ok ⟨"APage", "_aPage", "getAPage", "./a.page"⟩)] := by
    decide +kernel
  obtain ⟨skipped, second, places, _⟩ := again [⟨"/w/a.page.ts"⟩] (by
    simp only [List.mem_singleton]
    rintro file rfl
    exact ⟨_, by rw [judged]; exact List.mem_singleton_self _, by decide +kernel⟩)
  exact ⟨report, disk, skipped, added, second, places⟩

end Workspace
end Registrar
