import Registrar.Proofs.Registry.Continued
import Registrar.Proofs.Workspace.Seen

/-!
Adding in turn. What has been put into a registry is read in its text, so candidates that come later are
judged against the text as they are judged against the entries accepted before them, and their fragments
go where they would have gone. Adding files in two goes comes to what adding them in one does.
-/

namespace Registrar

open Recognition

/-- The candidate is what it was, or it is the registry itself and declares the class that it declared. -/
structure Candidate.Stays (c c' : Candidate) : Prop where
  file : c'.file = c.file
  isHost : c'.isHost = c.isHost
  text : c'.text? = c.text? ∨ c.isHost = true ∧ c'.text?.map className? = c.text?.map className?

theorem AdditionReport.sort_append (as bs : List (Except Skipped Entry)) :
    AdditionReport.sort (as ++ bs) = ((AdditionReport.sort as).1 ++ (AdditionReport.sort bs).1,
      (AdditionReport.sort as).2 ++ (AdditionReport.sort bs).2) := by
  simp [AdditionReport.sort]

namespace Host

variable {h : Host} {entries later : List Entry} {e : Entry} {c c' : Candidate} {cs ds ds' : List Candidate}

/-- Candidates are judged behind those that come before them. -/
theorem judgeAll_append (h : Host) (z : Zones) (accepted : List Entry) (cs ds : List Candidate) :
    h.judgeAll z accepted (cs ++ ds) = h.judgeAll z accepted cs ++
      h.judgeAll z (accepted ++ (AdditionReport.sort (h.judgeAll z accepted cs)).1) ds := by
  induction cs generalizing accepted with
  | nil => simp [judgeAll, AdditionReport.sort]
  | cons c cs ih =>
    rw [List.cons_append, judgeAll, judgeAll]
    cases h.judge z accepted c with
    | error s => simpa [AdditionReport.sort] using ih accepted
    | ok e => simpa [AdditionReport.sort] using ih (accepted ++ [e])

/-- The entries of the candidates that are accepted. -/
def entriesOf (h : Host) (cs : List Candidate) : List Entry := (AdditionReport.sort (h.judgeAll h.zones [] cs)).1

/-- The registry as an addition leaves it. -/
def after (h : Host) (cs : List Candidate) : Host := { h with text := (h.add cs).2.getD h.text }

theorem after_of_nil (none_ : h.entriesOf cs = []) : h.after cs = h := by
  rcases h.add_cases cs with ⟨-, kept⟩ | ⟨some_, -⟩
  · rw [after, kept, Option.getD_none]
  · exact absurd none_ some_

theorem after_of_ne_nil (some_ : h.entriesOf cs ≠ []) : h.after cs = h.grown (h.entriesOf cs) := by
  rcases h.add_cases cs with ⟨none_, -⟩ | ⟨-, changed⟩
  · exact absurd none_ some_
  · rw [after, changed, Option.getD_some]
    rfl

/-! ### The judgements -/

/-- What clashes with the text that has been given entries clashes with the text or with the entries. -/
theorem Receives.clashes_grown (receives : h.Receives entries) (declares : ∀ a ∈ entries, h.Declares a)
    (later : List Entry) (declares_ : h.Declares e) :
    (h.grown entries).clashes (h.grown entries).zones later e = h.clashes h.zones (entries ++ later) e := by
  have named : isIdentifier e.accessor.toList = true := by
    obtain ⟨file, text, own, declared⟩ := declares_
    rw [own]
    exact Naming.isIdentifier_accessor (isIdentifier_of_className? declared)
  -- The accessors of accepted entries are not compared, but they differ where the fields do.
  have covered : (∃ a ∈ entries, a.accessor = e.accessor) → ∃ a ∈ entries, a.field = e.field := by
    rintro ⟨a, member, same⟩
    refine ⟨a, member, ?_⟩
    by_contra other
    exact (declares a member).accessor_ne declares_ other same
  have either : (∃ a ∈ entries, a.className = e.className ∨ a.field = e.field) ↔
      (∃ a ∈ entries, a.className = e.className) ∨ ∃ a ∈ entries, a.field = e.field := by
    simp only [and_or_left, exists_or]
  have order : ∀ {i f a x i' f' a' l : Prop}, (a' → f') →
      (((((i ∨ i') ∨ f ∨ f') ∨ a ∨ a') ∨ x ∨ a') ∨ l ↔ (((i ∨ f) ∨ a) ∨ x) ∨ (i' ∨ f') ∨ l) := by
    grind
  rw [Bool.eq_iff_iff]
  simp only [clashes, zones, text_grown, Bool.or_eq_true, List.any_append, List.any_eq_true, beq_iff_eq,
    receives.importsName_withEntries, receives.hasField_withEntries,
    receives.accessorNamed?_withEntries_isSome, receives.exportSpan?_withEntries_isSome named, either]
  exact order covered

section
variable (receives : h.entriesOf cs ≠ [] → h.Receives (h.entriesOf cs))
include receives

/-- What clashes with the text that an addition leaves clashes with the text or with the entries. -/
theorem clashes_after (later : List Entry) (declares : h.Declares e) :
    (h.after cs).clashes (h.after cs).zones later e = h.clashes h.zones (h.entriesOf cs ++ later) e := by
  by_cases none_ : h.entriesOf cs = []
  · rw [after_of_nil none_, none_, List.nil_append]
  · rw [after_of_ne_nil none_]
    exact (receives none_).clashes_grown (fun a member => ((h.apart_judgeAll [] cs).2 a member).1) later declares

/-- A candidate that stays is judged after an addition as it is judged behind what was added. -/
theorem judge_after (later : List Entry) (stays : c.Stays c') :
    (h.after cs).judge (h.after cs).zones later c' = h.judge h.zones (h.entriesOf cs ++ later) c := by
  rcases stays.text with same | ⟨own, same⟩
  · simp only [judge, same, stays.file, stays.isHost]
    cases c.text? with
    | none => rfl
    | some t =>
      dsimp only
      split
      · rfl
      · cases declared : className? t with
        | none => rfl
        | some className =>
          have entry : (h.after cs).entry c.file className = h.entry c.file className := rfl
          have clashes := clashes_after receives later (e := h.entry c.file className) ⟨c.file, t, rfl, declared⟩
          dsimp only
          rw [entry, clashes]
          rfl
  · simp only [judge, stays.file, stays.isHost, own, Bool.true_or, if_true]
    cases read : c.text? with
    | none =>
      rw [read, Option.map_none, Option.map_eq_none_iff] at same
      rw [same]
    | some t =>
      rw [read] at same
      obtain ⟨t', read', declared⟩ := Option.map_eq_some_iff.mp same
      simp only [read', declared]

theorem judgeAll_after (later : List Entry) (stays : List.Forall₂ Candidate.Stays ds ds') :
    (h.after cs).judgeAll (h.after cs).zones later ds' =
      h.judgeAll h.zones (h.entriesOf cs ++ later) ds := by
  induction stays generalizing later with
  | nil => rfl
  | cons here _ ih =>
    rw [judgeAll, judgeAll, judge_after receives later here]
    split
    · rw [ih, List.append_assoc]
    · rw [ih]

/-! ### Two goes -/

/-- Candidates that are added in two goes come to what they come to in one: the reports are joined, and the
text is the same. -/
theorem add_append (marked : Anchors.Marked h.text) (stays : List.Forall₂ Candidate.Stays ds ds') :
    (h.add (cs ++ ds)).1 = ⟨(h.add cs).1.added ++ ((h.after cs).add ds').1.added,
      (h.add cs).1.skipped ++ ((h.after cs).add ds').1.skipped⟩ ∧
    (h.after (cs ++ ds)).text = ((h.after cs).after ds').text := by
  have judged := judgeAll_after receives [] stays
  rw [List.append_nil] at judged
  have sorted_ : AdditionReport.sort (h.judgeAll h.zones [] (cs ++ ds)) =
      (h.entriesOf cs ++ (h.after cs).entriesOf ds', (AdditionReport.sort (h.judgeAll h.zones [] cs)).2 ++
        (AdditionReport.sort ((h.after cs).judgeAll (h.after cs).zones [] ds')).2) := by
    rw [judgeAll_append, AdditionReport.sort_append, List.nil_append, entriesOf, entriesOf, judged]
    rfl
  have entries : h.entriesOf (cs ++ ds) = h.entriesOf cs ++ (h.after cs).entriesOf ds' :=
    congrArg Prod.fst sorted_
  constructor
  · have added : (h.add (cs ++ ds)).1 = ⟨(h.entriesOf (cs ++ ds)).map (·.className),
        (AdditionReport.sort (h.judgeAll h.zones [] (cs ++ ds))).2⟩ := rfl
    rw [added, entries, sorted_, List.map_append]
    rfl
  · by_cases none_ : (h.after cs).entriesOf ds' = []
    · rw [none_, List.append_nil] at entries
      rw [after_of_nil none_]
      by_cases first : h.entriesOf cs = []
      · rw [after_of_nil first, after_of_nil (entries.trans first)]
      · rw [after_of_ne_nil first, after_of_ne_nil (entries ▸ first), entries]
    · rw [after_of_ne_nil none_, after_of_ne_nil (by simp [entries, none_]), entries]
      by_cases first : h.entriesOf cs = []
      · rw [after_of_nil first, first, List.nil_append]
      · rw [after_of_ne_nil first, text_grown, text_grown, (receives first).withEntries_grown marked]

end

end Host

namespace Workspace

variable {w : Workspace} {registry : Path} {xs ys : List Path} {t : Text}

/-- Files are added to a registry in two goes, and the report is on both. -/
def addInTurn (w : Workspace) (registry : Path) (xs ys : List Path) : Except Failure (AdditionReport × Disk) := do
  let (first, disk) ← w.add registry xs
  let (second, disk) ← { w with disk }.add registry ys
  return (⟨first.added ++ second.added, first.skipped ++ second.skipped⟩, disk)

/-- A file whose class can be put into the registry so that it is read there: the specifier holds no sign that
would end it, the class has no dollar sign, and its field is not that of the context. -/
structure Fits (w : Workspace) (registry file : Path) : Prop where
  unquoted : ∀ c ∈ (Specifier.of w.config w.root registry file).toList, isQuote c = false
  whole : '\n' ∉ (Specifier.of w.config w.root registry file).toList
  class_ : ∀ text className, w.disk.readText? file = some text → className? text = some className →
    '$' ∉ className.toList ∧ Naming.field w.config.fieldPrefix className ≠ w.config.contextField

instance (w : Workspace) (registry file : Path) : Decidable (w.Fits registry file) :=
  decidable_of_iff ((Specifier.of w.config w.root registry file).toList.any isQuote = false ∧
      '\n' ∉ (Specifier.of w.config w.root registry file).toList ∧
      ∀ className ∈ (w.disk.readText? file).bind className?,
        '$' ∉ className.toList ∧ Naming.field w.config.fieldPrefix className ≠ w.config.contextField)
    ⟨fun ⟨u, l, each⟩ => ⟨by simpa using u, l, fun _ className read declared =>
        each className (Option.mem_def.mpr (Option.bind_eq_some_iff.mpr ⟨_, read, declared⟩))⟩,
      fun fits => ⟨by simpa using fits.unquoted, fits.whole, fun className member =>
        have ⟨text, read, declared⟩ := Option.bind_eq_some_iff.mp (Option.mem_def.mp member)
        fits.class_ text className read declared⟩⟩

/-- An absolute registry has no relative specifiers with the mark in them. -/
theorem unmarked_relative (absolute : registry.isAbsolute = true) (extension : String) (file : Path) :
    ¬Source.accessorMark.toList <:+: (Specifier.relative extension registry file).toList := by
  intro inside
  have slashes : ['/', '/'] <:+: Source.accessorMark.toList := ⟨[], " page-registry: accessors".toList, rfl⟩
  exact (Specifier.singleSlashed_relative absolute extension file).avoids (slashes.trans inside)

/-- What is accepted is the entry of a class that one of the files declares. -/
theorem exists_file_of_mem_entriesOf {h : Host} {e : Entry}
    (member : e ∈ h.entriesOf (xs.map (w.candidate registry))) : ∃ file ∈ xs, e = h.entry file e.className ∧
      ∃ text, w.disk.readText? file = some text ∧ className? text = some e.className := by
  obtain ⟨c, offered, entry, text, read, declared⟩ := (Pattern.exists_of_forall₂ (h.forall₂_judgeAll _ _ _)).2 _
    (AdditionReport.mem_sort_iff.mp member)
  obtain ⟨file, inside, rfl⟩ := List.mem_map.mp offered
  exact ⟨file, inside, entry, text, read, declared⟩

theorem receives_of_fits (clear : Anchors.Clear t w.config.contextField) (braced : Anchors.Braced t)
    (named : w.config.Named) (style : w.config.importStyle = .relative)
    (spellable : (⟨w.config, w.root, registry, t⟩ : Host).Spellable) (fits : ∀ file ∈ xs, w.Fits registry file)
    (unmarked : ∀ file ∈ xs, ¬Source.accessorMark.toList <:+: (Specifier.of w.config w.root registry file).toList)
    (paired : (∀ file ∈ xs, Text.Balanced (Specifier.of w.config w.root registry file).toList) ∨
      accessorSignature.findAll (t.before ((Zones.ofText t).lastImportEnd.getD 0)) = []) :
    let h : Host := ⟨w.config, w.root, registry, t⟩
    h.entriesOf (xs.map (w.candidate registry)) ≠ [] →
      h.Receives (h.entriesOf (xs.map (w.candidate registry))) := by
  intro h some_
  have own : ∀ e ∈ h.entriesOf (xs.map (w.candidate registry)), ∃ file ∈ xs,
      e.specifier = Specifier.of w.config w.root registry file ∧ e.accessor = Naming.accessor e.className ∧
        e.field = Naming.field w.config.fieldPrefix e.className ∧ isIdentifier e.className.toList = true ∧
          '$' ∉ e.className.toList ∧ e.field ≠ w.config.contextField := by
    intro e member
    obtain ⟨file, inside, entry, text, read, declared⟩ := exists_file_of_mem_entriesOf member
    obtain ⟨plain, apart⟩ := (fits file inside).class_ text e.className read declared
    have field : e.field = Naming.field w.config.fieldPrefix e.className := by
      rw [entry]
      rfl
    refine ⟨file, inside, ?_, ?_, field, isIdentifier_of_className? declared, plain, field ▸ apart⟩ <;> rw [entry] <;>
      rfl
  refine ⟨clear, braced, spellable, some_, fun e member => ?_, fun e member => ?_, fun e member => ?_,
    fun e member => ?_, ?_⟩
  · obtain ⟨file, inside, specifier, -⟩ := own e member
    refine ((h.apart_judgeAll [] _).2 e member).1.proper named ?_
    rw [specifier]
    refine ⟨?_, (fits file inside).unquoted, (fits file inside).whole⟩
    rw [Specifier.of, style]
    exact Specifier.relative_ne_nil _ _ _
  · obtain ⟨file, inside, -, accessor, -, class_, plain, -⟩ := own e member
    rw [accessor]
    exact Naming.all_isWord_accessor class_ plain
  · obtain ⟨file, inside, -, -, -, -, -, apart⟩ := own e member
    exact apart
  · obtain ⟨file, inside, specifier, -⟩ := own e member
    rw [specifier]
    exact unmarked file inside
  · refine paired.imp_left fun balanced e member => ?_
    obtain ⟨file, inside, specifier, -⟩ := own e member
    rw [specifier]
    exact balanced file inside

/-- Where the registry is given another text in which it declares the class that it declared, candidates stay. -/
theorem candidate_stays {new : Text} {disk : Disk} (read : w.disk.readText registry = .ok t)
    (written : w.disk.write registry new = .ok disk) (declared : className? new = className? t) (file : Path) :
    (w.candidate registry file).Stays ({ w with disk }.candidate registry file) := by
  obtain ⟨names, moment, led, there⟩ := Disk.readText_eq_ok_iff.mp read
  have alters := Disk.alters_of_write written led
  have alike := alters.alike there
  refine ⟨rfl, alike.sameFile_eq, ?_⟩
  show disk.readText? file = w.disk.readText? file ∨ w.disk.sameFile file registry = true ∧
    (disk.readText? file).map className? = (w.disk.readText? file).map className?
  by_cases host : w.disk.locate file = .ok names
  · right
    have text : w.disk.readText? file = some t :=
      Disk.readText?_eq_some_iff.mpr (Disk.readText_eq_ok_iff.mpr ⟨names, moment, host, there⟩)
    have text' : disk.readText? file = some new := by
      refine Disk.readText?_eq_some_iff.mpr (Disk.readText_eq_ok_iff.mpr
        ⟨names, w.disk.now, alters.grows.locate host, ?_⟩)
      rw [alters.shape, if_pos rfl]
    refine ⟨?_, by rw [text, text', Option.map_some, Option.map_some, declared]⟩
    simp only [Disk.sameFile, Disk.canonical_eq_ok host there, Disk.canonical_eq_ok led there, beq_self_eq_true]
  · left
    cases led' : w.disk.locate file with
    | ok names' =>
      refine Option.ext fun text => alters.agrees.readText? led' ?_
      rintro rfl
      exact host led'
    | error why =>
      have unread : ∀ d : Disk, d.locate file = .error why → d.readText? file = none := by
        intro d lost
        refine Option.eq_none_iff_forall_ne_some.mpr fun text found => ?_
        obtain ⟨_, _, found, -⟩ := Disk.readText_eq_ok_iff.mp (Disk.readText?_eq_some_iff.mp found)
        rw [lost] at found
        cases found
      rw [unread _ led', unread _ (alike.locate_eq.trans led')]

theorem addInTurn_eq_ok {first second : AdditionReport} {disk disk' : Disk}
    (added : w.add registry xs = .ok (first, disk)) (added' : { w with disk }.add registry ys = .ok (second, disk')) :
    w.addInTurn registry xs ys = .ok (⟨first.added ++ second.added, first.skipped ++ second.skipped⟩, disk') := by
  simp only [addInTurn, added, bind, Except.bind, added']
  rfl

/-- Adding files in two goes comes to what adding them in one does: both come to an end, with the same report
and the same text. -/
theorem exists_addInTurn_of_read (read : w.disk.readText registry = .ok t)
    (clear : Anchors.Clear t w.config.contextField) (braced : Anchors.Braced t) (marked : Anchors.Marked t)
    (named : w.config.Named) (style : w.config.importStyle = .relative)
    (spellable : (⟨w.config, w.root, registry, t⟩ : Host).Spellable) (fits : ∀ file ∈ xs, w.Fits registry file)
    (unmarked : ∀ file ∈ xs, ¬Source.accessorMark.toList <:+: (Specifier.of w.config w.root registry file).toList)
    (paired : (∀ file ∈ xs, Text.Balanced (Specifier.of w.config w.root registry file).toList) ∨
      accessorSignature.findAll (t.before ((Zones.ofText t).lastImportEnd.getD 0)) = []) (ys : List Path) :
    ∃ report disk disk' new, w.addInTurn registry xs ys = .ok (report, disk) ∧
      disk.readText registry = .ok new ∧ w.add registry (xs ++ ys) = .ok (report, disk') ∧
        disk'.readText registry = .ok new := by
  let h : Host := ⟨w.config, w.root, registry, t⟩
  let cs := xs.map (w.candidate registry)
  have receives : h.entriesOf cs ≠ [] → h.Receives (h.entriesOf cs) :=
    receives_of_fits clear braced named style spellable fits unmarked paired
  obtain ⟨disk, added, read₁⟩ := exists_add_of_read read xs
  obtain ⟨disk', added', read₂⟩ := exists_add_of_read (w := { w with disk }) read₁ ys
  obtain ⟨disk'', together, read₃⟩ := exists_add_of_read read (xs ++ ys)
  have each : ∀ file, (w.candidate registry file).Stays ({ w with disk }.candidate registry file) := by
    intro file
    rcases writeChange_eq_ok_iff.mp ((add_eq_ok_iff read).mp added).2 with ⟨-, rfl⟩ | ⟨new, change, written⟩
    · exact ⟨rfl, rfl, .inl rfl⟩
    · refine candidate_stays read written ?_ file
      rcases h.add_cases cs with ⟨-, kept⟩ | ⟨some_, grown⟩
      · rw [show (h.add cs).2 = some new from change] at kept
        cases kept
      · obtain rfl := Option.some.inj ((show (h.add cs).2 = some new from change).symm.trans grown)
        exact (receives some_).className?_withEntries
  have stays : List.Forall₂ Candidate.Stays (ys.map (w.candidate registry))
      (ys.map ({ w with disk }.candidate registry)) := by
    rw [List.forall₂_map_left_iff, List.forall₂_map_right_iff, List.forall₂_same]
    exact fun file _ => each file
  obtain ⟨report, text⟩ := Host.add_append receives marked stays
  rw [List.map_append] at together read₃
  refine ⟨_, disk', disk'', _, addInTurn_eq_ok added added', read₂, ?_, ?_⟩
  · rw [together, report]
    rfl
  · exact read₃.trans (congrArg Except.ok text)

/-- Two pages are added to a registry that was written by hand, one after the other. -/
theorem exists_addInTurn_of_read_edited :
    let t := "import \x7b B \x7d from './b';\nclass Site \x7b\n  public getB(): B \x7b return b; \x7d\n\x7d\n".toList
    let page (name : String) : Item := .file ⟨.text ("export class " ++ name ++ " \x7b\x7d\n").toList, 0⟩
    let files := ((Folder.empty.put "a.page.ts" (page "A")).put "c.page.ts" (page "C")).put "site.ts" (.file ⟨.text t, 0⟩)
    let w : Workspace := ⟨{ top := Folder.empty.put "w" (.folder files) }, ⟨"/w"⟩, {}⟩
    ∃ report disk disk' new, w.addInTurn ⟨"/w/site.ts"⟩ [⟨"/w/a.page.ts"⟩] [⟨"/w/c.page.ts"⟩] = .ok (report, disk) ∧
      disk.readText ⟨"/w/site.ts"⟩ = .ok new ∧
      w.add ⟨"/w/site.ts"⟩ ([⟨"/w/a.page.ts"⟩] ++ [⟨"/w/c.page.ts"⟩]) = .ok (report, disk') ∧
      disk'.readText ⟨"/w/site.ts"⟩ = .ok new := by
  intro t page files w
  have read : w.disk.readText ⟨"/w/site.ts"⟩ = .ok t :=
    Disk.readText_eq_ok_iff.mpr ⟨["w", "site.ts"], 0, by decide +kernel, rfl⟩
  exact exists_addInTurn_of_read read (by decide +kernel) (by decide +kernel) (by decide +kernel) (by decide +kernel) rfl
    (by decide +kernel) (by decide +kernel) (fun _ _ => unmarked_relative rfl _ _) (.inr (by decide +kernel)) _

/-- Two goes and one come apart where signs are read as code that are none of it: where a specifier opens a block
that is not closed in it, where the braces of the last import are closed in its specifier only, where the file that
a registry without a class is named after has a brace in its name, and where a specifier holds the mark. -/
theorem addInTurn_ne_add :
    let file (lines : List String) : Item := .file ⟨.text (Text.ofLines (lines.map String.toList)), 0⟩
    let page (name : String) : Item := file ["export class " ++ name ++ " \x7b\x7d"]
    let apart (lines : List String) (top : Folder) (registry first second : Path) : Prop :=
      let w : Workspace := ⟨⟨top, some ["w"], 0⟩, ⟨"/w"⟩, {}⟩
      let t := Text.ofLines (lines.map String.toList)
      (w.disk.readText? registry = some t ∧ Anchors.Clear t w.config.contextField ∧
        Text.Shut '\x7b' '\x7d' (t.before (Anchors.ofText t w.config.contextField).imports) ∧
        Anchors.Marked t ∧ w.config.Named ∧ w.Fits registry first ∧ w.Fits registry second) ∧
      (w.addInTurn registry [first] [second]).toOption.map (fun (report, d) => (report, d.readText? registry)) ≠
        (w.add registry [first, second]).toOption.map (fun (report, d) => (report, d.readText? registry))
    let opened := ["class P \x7b", "  public getY(): Y \x7b", "import \x7b B \x7d from './b';", "  \x7d", "\x7d"]
    let braced := ["import \x7b", "import A from './x\x7d from ';", "", "class Site \x7b", "\x7d"]
    let named := ["\x7d", "  public getY(): Y \x7b"]
    apart opened (Folder.empty.put "w" (.folder (((Folder.empty.put "\x7b\x7b" (.folder (Folder.empty.put "x.page.ts"
        (page "X")))).put "y.page.ts" (page "Y")).put "site.ts" (file opened))))
        ⟨"/w/site.ts"⟩ ⟨"/w/\x7b\x7b/x.page.ts"⟩ ⟨"/w/y.page.ts"⟩ ∧
      apart braced (Folder.empty.put "w" (.folder (((Folder.empty.put "a.page.ts" (page "A")).put "b.page.ts"
        (page "B")).put "site.ts" (file braced)))) ⟨"/w/site.ts"⟩ ⟨"/w/b.page.ts"⟩ ⟨"/w/a.page.ts"⟩ ∧
      apart named (Folder.empty.put "w" (.folder (((Folder.empty.put "x.page.ts" (page "X")).put "y.page.ts"
        (page "Y")).put "si\x7dte.ts" (file named)))) ⟨"/w/si\x7dte.ts"⟩ ⟨"/w/x.page.ts"⟩ ⟨"/w/y.page.ts"⟩ ∧
      apart ["\x7d"] ((Folder.empty.put " page-registry: accessors" (.folder (Folder.empty.put "x.page.ts"
        (page "X")))).put "w" (.folder ((Folder.empty.put "y.page.ts" (page "Y")).put "site.ts" (file ["\x7d"]))))
        ⟨"site.ts"⟩ ⟨"/ page-registry: accessors/x.page.ts"⟩ ⟨"y.page.ts"⟩ := by
  intro file page apart opened braced named
  refine ⟨?_, ?_, ?_, ?_⟩ <;> decide +kernel

end Workspace
end Registrar
