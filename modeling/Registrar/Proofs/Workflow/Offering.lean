import Registrar.Proofs.Workspace.Nested
import Registrar.Proofs.Workspace.Repeated
import Registrar.Workflow.Membership

/-!
What is offered and what would be added. A helper is left out of the offers for its import, its field
and its own import of the registry; an addition looks for its accessor and its export as well. So the
two agree on a helper as long as neither of these stands in the registry without the import and the
field.
-/

namespace Registrar

namespace Disk

variable {d : Disk} {p q : Path} {t u : Text}

/-- One file has one text. -/
theorem eq_of_sameFile (proper : d.top.Proper) (same : d.sameFile p q = true)
    (read : d.readText p = .ok t) (read' : d.readText q = .ok u) : t = u := by
  obtain ⟨names, moment, led, there⟩ := readText_eq_ok_iff.mp read
  obtain ⟨names', moment', led', there'⟩ := readText_eq_ok_iff.mp read'
  rw [sameFile, canonical_eq_ok led there, canonical_eq_ok led' there'] at same
  have path : Path.ofNames true names = .ofNames true names' := by simpa using same
  have way := locate_ofNames (proper.entries_of_at? (Folder.shape_eq_file_iff.mp there)) there
  have way' := locate_ofNames (proper.entries_of_at? (Folder.shape_eq_file_iff.mp there')) there'
  obtain rfl : names = names' := Except.ok.inj (way.symm.trans (path ▸ way'))
  exact (by simpa [there] using there' : t = u ∧ moment = moment').1

end Disk

/-- A candidate by itself is added unless a part of its entry is there, or it imports its accessor. -/
theorem Host.added_singleton_iff {h : Host} {c : Candidate} {text : Text} {className : String}
    (apart : c.isHost = false) (read : c.text? = some text)
    (other : Recognition.isRegistry text = false)
    (declared : Recognition.className? text = some className) :
    (h.add [c]).1.added = [className] ↔
      h.clashes h.zones [] (h.entry c.file className) = false ∧
        importsOwnAccessor h.config h.root h.path c.file text (Naming.accessor className) = false := by
  have judged : h.judge h.zones [] c =
      if h.clashes h.zones [] (h.entry c.file className) then .error ⟨className, c.file, .duplicate⟩
      else if importsOwnAccessor h.config h.root h.path c.file text (Naming.accessor className) then
        .error ⟨className, c.file, .circular (Naming.accessor className)⟩
      else .ok (h.entry c.file className) := by
    simp only [judge, read, apart, other, declared, Bool.or_self, Bool.false_eq_true, if_false]
    rfl
  rw [add, judgeAll, judged]
  cases h.clashes h.zones [] (h.entry c.file className) <;>
    cases importsOwnAccessor h.config h.root h.path c.file text (Naming.accessor className) <;>
      simp [AdditionReport.sort, judgeAll, entry]

namespace Workspace

variable {w : Workspace} {h : HelperFile} {className : String}

theorem mem_sources_of_mem_helperFiles (member : h ∈ w.helperFiles) : h.file ∈ w.sources := by
  obtain ⟨file, inside, told⟩ := List.mem_filterMap.mp member
  split at told
  · obtain rfl := Option.some.inj told
    exact inside
  · cases told

/-- A helper that declares its class has a text that says so and is no registry's. -/
theorem of_mem_helperFiles (member : h ∈ w.helperFiles) (declared : h.identity = .declared className) :
    ∃ text, w.disk.readText h.file = .ok text ∧ Recognition.isRegistry text = false ∧
      Recognition.className? text = some className := by
  obtain ⟨file, -, told⟩ := List.mem_filterMap.mp member
  split at told
  · next identity kind =>
    obtain rfl := Option.some.inj told
    obtain rfl : identity = .declared className := declared
    rw [Workspace.kind] at kind
    split at kind
    · next text read =>
      rw [kindOf] at kind
      split at kind
      · cases kind
      · next other =>
        split at kind
        · next name named =>
          cases kind
          exact ⟨text, Disk.readText?_eq_some_iff.mp read, by simpa using other, named⟩
        · cases kind
    · split at kind <;> cases kind
  · cases told

end Workspace

namespace Workplace

variable {w : Workplace} {registry : Path} {z : Zones} {h : HelperFile} {className : String}

/-- A helper that declares its class is offered unless the registry has its import or its field, or it
imports its accessor from the registry. -/
theorem offerOf_eq_offered_iff (declared : h.identity = .declared className) {text : Text}
    (read : w.disk.readText h.file = .ok text) : w.offerOf registry z h = .offered h ↔
      z.importsName className = false ∧ z.hasField (h.field w.config) = false ∧
        importsOwnAccessor w.config w.root registry h.file text h.accessor = false := by
  rw [offerOf, declared, Disk.readText?_eq_some_iff.mpr read]
  dsimp only [Option.any_some]
  by_cases there : (z.importsName className || z.hasField (h.field w.config)) = true
  · rw [if_pos there]
    simp only [Bool.or_eq_true] at there
    rcases there with there | there <;> simp [there]
  · rw [if_neg there]
    simp only [Bool.or_eq_true, not_or, Bool.not_eq_true] at there
    by_cases circular : importsOwnAccessor w.config w.root registry h.file text h.accessor = true
    · rw [if_pos circular]
      simp [circular]
    · rw [if_neg circular]
      simp [there, circular]

theorem mem_inOrder {l : List HelperFile} : h ∈ w.inOrder l ↔ h ∈ l := by
  rw [inOrder]
  cases w.store.preferences.order <;> exact (sorted_perm _ _).mem_iff

/-- A helper is offered as itself. -/
theorem eq_of_offerOf_eq_offered {other : HelperFile} (offered : w.offerOf registry z other = .offered h) :
    other = h := by
  rw [offerOf] at offered
  split at offered
  · cases offered
  · split at offered
    · cases offered
    · split at offered
      · cases offered
      · exact Offer.offered.inj offered

/-- What is offered among some helpers is one of them. -/
theorem mem_of_mem_inOrder {l : List HelperFile}
    (offered : h ∈ w.inOrder (Offer.helpers (l.map (w.offerOf registry z)))) :
    h ∈ l ∧ w.offerOf registry z h = .offered h := by
  rw [mem_inOrder, Offer.helpers, List.filterMap_map, List.mem_filterMap] at offered
  obtain ⟨other, member, offered⟩ := offered
  dsimp only [Function.comp] at offered
  split at offered
  · next h' is =>
    obtain rfl := Option.some.inj offered
    obtain rfl := eq_of_offerOf_eq_offered is
    exact ⟨member, is⟩
  · cases offered

/-- The helpers that the user is offered are those of which the offers say so. -/
theorem mem_inOrder_iff {l : List HelperFile} (member : h ∈ l) :
    h ∈ w.inOrder (Offer.helpers (l.map (w.offerOf registry z))) ↔
      w.offerOf registry z h = .offered h := by
  refine ⟨fun offered => (mem_of_mem_inOrder offered).2, fun offered => ?_⟩
  rw [mem_inOrder, Offer.helpers, List.filterMap_map, List.mem_filterMap]
  exact ⟨h, member, by simp [offered]⟩

/-- A helper would be added by itself exactly when it is offered and neither a method with its
accessor's name nor an export of it stands in the registry. -/
theorem adds_iff_offers (w : Workplace) (proper : w.disk.top.Proper) {registry : Path} {t : Text}
    (read : w.disk.readText registry = .ok t) (recognized : Recognition.isRegistry t = true)
    {h : HelperFile} (member : h ∈ w.helperFiles) {className : String}
    (declared : h.identity = .declared className) :
    (∃ report disk, w.add registry [h.file] = .ok (report, disk) ∧ report.added = [className]) ↔
      h ∈ w.inOrder (Offer.helpers (w.helperFiles.map (w.offerOf registry (Zones.ofText t)))) ∧
        (Zones.ofText t).accessorNamed? h.accessor = none ∧ exportSpan? t h.accessor = none := by
  obtain ⟨text, readHelper, other, named⟩ := Workspace.of_mem_helperFiles member declared
  have apart : w.disk.sameFile h.file registry = false := by
    refine Bool.eq_false_iff.mpr fun same => ?_
    rw [Disk.eq_of_sameFile proper same readHelper read, recognized] at other
    cases other
  have accessor : h.accessor = Naming.accessor className := by rw [HelperFile.accessor, declared]; rfl
  have field : h.field w.config = Naming.field w.config.fieldPrefix className := by
    rw [HelperFile.field, declared]
    rfl
  have candidate : w.candidate registry h.file = ⟨h.file, some text, false⟩ := by
    rw [Workspace.candidate, Disk.readText?_eq_some_iff.mpr readHelper, apart]
  let host : Host := ⟨w.config, w.root, registry, t⟩
  have judged : (host.add [w.candidate registry h.file]).1.added = [className] ↔
      host.clashes (Zones.ofText t) [] (host.entry h.file className) = false ∧
        importsOwnAccessor w.config w.root registry h.file text (Naming.accessor className) =
          false := by
    rw [candidate]
    exact Host.added_singleton_iff rfl rfl other named
  have free : host.clashes (Zones.ofText t) [] (host.entry h.file className) = false ↔
      (Zones.ofText t).importsName className = false ∧
      (Zones.ofText t).hasField (Naming.field w.config.fieldPrefix className) = false ∧
      (Zones.ofText t).accessorNamed? (Naming.accessor className) = none ∧
      exportSpan? t (Naming.accessor className) = none := by
    simp [Host.clashes, Host.entry, host, and_assoc]
  rw [mem_inOrder_iff member, offerOf_eq_offered_iff declared readHelper]
  have added_iff : (∃ report disk, w.add registry [h.file] = .ok (report, disk) ∧
      report.added = [className]) ↔
        (host.add [w.candidate registry h.file]).1.added = [className] := by
    obtain ⟨report, disk, added⟩ := Workspace.exists_add read
      (Disk.exists_write_of_isFile (Disk.isFile_of_readText read)) [h.file]
    have is := ((Workspace.add_eq_ok_iff read).mp added).1
    constructor
    · rintro ⟨report', disk', added', same⟩
      rw [← same, ((Workspace.add_eq_ok_iff read).mp added').1]
      rfl
    · intro same
      exact ⟨report, disk, added, is ▸ same⟩
  rw [added_iff, judged, free, accessor, field]
  tauto

/-- A registry with a method of the accessor's name but without the import and the field: the helper is
offered, and would be skipped. -/
theorem adds_iff_offers_method :
    let site := "private static instance: Site;\npublic getLoginPage() \x7b\n\x7d\n".toList
    let files : Folder := .file "login.page.ts" ⟨.text "class LoginPage".toList, 0⟩
      (.file "site.ts" ⟨.text site, 0⟩ .empty)
    let w : Workplace := ⟨⟨{ top := .folder "w" files .empty }, ⟨"/w"⟩, {}⟩, {}, 0⟩
    let h : HelperFile := ⟨⟨"/w/login.page.ts"⟩, .declared "LoginPage"⟩
    h ∈ w.inOrder (Offer.helpers (w.helperFiles.map (w.offerOf ⟨"/w/site.ts"⟩ (Zones.ofText site)))) ∧
    ¬∃ report disk, w.add ⟨"/w/site.ts"⟩ [h.file] = .ok (report, disk) ∧ report.added = ["LoginPage"] := by
  intro site files w h
  have proper : w.disk.top.Proper := by
    refine ⟨⟨by decide +kernel, by decide +kernel⟩, rfl, ⟨⟨by decide +kernel, by decide +kernel⟩,
      rfl, ⟨by decide +kernel, by decide +kernel⟩, rfl, trivial⟩, trivial⟩
  have read : w.disk.readText ⟨"/w/site.ts"⟩ = .ok site := rfl
  have adds := w.adds_iff_offers proper read (by decide +kernel) (h := h) (by decide +kernel) rfl
  refine ⟨by decide +kernel, fun added => ?_⟩
  exact absurd (adds.mp added).2.1 (by decide +kernel)

end Workplace

end Registrar
