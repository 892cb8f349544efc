import Registrar.Proofs.Registry.Remainder
import Registrar.Proofs.Session.Choice
import Registrar.Proofs.Workflow.Deleting
import Registrar.Proofs.Workspace.Kept
import Registrar.Proofs.Workspace.Mention

/-!
The safety of deleting helpers' files. The inquiry looks for the classes and for the accessors that go
by convention, as words, in all sources but the registry and the helper's own file. That is enough to
leave no import of a deleted file where a registry is laid out as it is generated, an import that
stands for a file names its class, and each class has a file of its own.
-/

namespace Registrar

open Disk Inquiry

/-- An import in one file stands for another file. -/
def Workspace.Resolves (w : Workspace) (importer : Path) (i : Import) (file : Path) : Prop :=
  ∃ base, Specifier.base? w.config w.root importer i.specifier = some base ∧
    Specifier.baseMatches w.config base file = true

instance (w : Workspace) (importer : Path) (i : Import) (file : Path) :
    Decidable (w.Resolves importer i file) :=
  decidable_of_iff ((Specifier.base? w.config w.root importer i.specifier).any
    fun base => Specifier.baseMatches w.config base file) (Option.any_eq_true _ _)

/-- A path that leads to the file of preferences. -/
def Workplace.IsOwn (w : Workplace) (f : Path) : Prop :=
  ∃ file, w.store.file? = some file ∧ w.disk.Meet f file

namespace RemovingPlan

/-- What is found out before a plan is made: the text of the registry, the files of the classes, and
that no class with a file is mentioned elsewhere. -/
structure IsFound (plan : RemovingPlan) (w : Workspace) (t : Text) : Prop where
  read : w.disk.readText plan.registry = .ok t
  files : plan.files = plan.classes.filterMap (w.helperFile? plan.registry (Zones.ofText t))
  unmentioned : ∀ c ∈ plan.classes, ∀ file,
    w.helperFile? plan.registry (Zones.ofText t) c = some file →
      w.references c (Naming.accessor c) [plan.registry, file] = []

/-- What the search for words takes for granted of a plan for a registry with the text `t`. -/
structure IsClean (plan : RemovingPlan) (w : Workspace) (t : Text) : Prop where
  /-- The registry is as it was generated and changed, and the classes can be told apart. -/
  generated : ∃ (s : Site) (changes : List Change), s.Plain ∧ s.AllowsAll [] changes ∧
    s.frame.config = w.config ∧ t = s.textAfter changes ∧
      ∀ n ∈ plan.classes, ∀ m ∈ plan.classes, n ≠ m → s.frame.Apart n m
  distinct : plan.classes.Nodup
  words : ∀ n ∈ plan.classes, Text.IsWord n.toList ∧ Text.IsWord (Naming.accessor n).toList
  /-- The type of methods that return nothing is no class. -/
  void : "void" ∉ plan.classes
  /-- What the registry imports from a file that is deleted is taken out with a class. -/
  own : ∀ f, f ∈ w.sources ∨ f = plan.registry → w.disk.Meet f plan.registry →
    ∀ i ∈ (Zones.ofText t).imports, ∀ file ∈ plan.files, w.Resolves f i file →
      ∃ c ∈ plan.classes, i.binds c = true
  /-- What another source imports from a file that is deleted is a class of the file, or the class is
  mentioned beside it. -/
  named : ∀ f ∈ w.sources, ¬w.disk.Meet f plan.registry → (∀ file ∈ plan.files, ¬w.disk.Meet f file) →
    ∀ text, w.disk.readText? f = some text → ∀ i ∈ (Zones.ofText text).imports,
      ∀ file ∈ plan.files, w.Resolves f i file → ∃ c ∈ plan.classes,
        w.helperFile? plan.registry (Zones.ofText t) c = some file ∧
          ((∃ b ∈ i.bindings, b.imported = c ∨ b.bound = c) ∨ text.HasWord c.toList)
  /-- No two classes are in one file. -/
  separate : plan.files.Pairwise fun p q => ¬w.disk.Meet p q
  /-- No class is in the registry itself. -/
  outside : ∀ file ∈ plan.files, ¬w.disk.Meet file plan.registry

/-- What is wanted once a plan for a registry with the text `t` is carried out: the files are gone,
none of them is what an import stands for, and no other source mentions a class that had one or the
accessor that was taken out with it. Of the file of preferences nothing is said. -/
structure IsSafe (plan : RemovingPlan) (w w' : Workplace) (t : Text) : Prop where
  gone : ∀ file ∈ plan.files, ¬w'.IsOwn file → w'.disk.isFile file = false
  unresolved : ∀ f, f ∈ w'.sources ∨ f = plan.registry → ¬w'.IsOwn f →
    ∀ text, w'.disk.readText? f = some text → ∀ i ∈ (Zones.ofText text).imports,
      ∀ file ∈ plan.files, ¬w'.Resolves f i file
  unmentioned : ∀ f ∈ w'.sources, ¬w'.IsOwn f → ¬w'.disk.Meet f plan.registry →
    ∀ text, w'.disk.readText? f = some text → ∀ c ∈ plan.classes,
      (w.helperFile? plan.registry (Zones.ofText t) c).isSome → ¬text.HasWord c.toList ∧
        ∀ a, (Zones.ofText t).accessorOf? c = some a → ¬text.HasWord a.name.toList

end RemovingPlan

/-! ### What is found out -/

namespace Workflow

variable {w : Workplace}

theorem yields_readText (file : Path) :
    Yields w (Inquiry.readText file) fun t => w.disk.readText file = .ok t := by
  refine .read ?_
  split
  · next t read => exact .pure read
  · exact .throw _

/-- The files that are found are those of the classes, and no class that has one is mentioned
elsewhere. -/
theorem yields_filesOf (registry : Path) (z : Zones) (classes : List String) :
    Yields w (filesOf registry z classes) fun files =>
      files = classes.filterMap (w.helperFile? registry z) ∧ ∀ c ∈ classes, ∀ file,
        w.helperFile? registry z c = some file →
          w.references c (Naming.accessor c) [registry, file] = [] := by
  refine .read (.next fun _ => ?_)
  dsimp only
  split
  · exact .throw _
  · next places =>
    have none_ : ∀ c ∈ classes, ∀ file, w.helperFile? registry z c = some file →
        w.references c (Naming.accessor c) [registry, file] = [] := by
      intro c known file there
      have nothing : ∀ references, w.fileFate registry z c = .kept references → references = [] := by
        intro references kept
        simp only [Bool.not_eq_true, Bool.not_eq_false', List.isEmpty_iff, List.flatMap_map,
          List.flatMap_eq_nil_iff] at places
        simpa [kept] using places c known
      rw [Workspace.fileFate, there] at nothing
      dsimp only at nothing
      split at nothing
      · assumption
      · exact nothing _ rfl
    refine .pure ⟨?_, none_⟩
    rw [List.filterMap_map]
    refine List.filterMap_congr fun c known => ?_
    rw [Function.comp_apply, Workspace.fileFate]
    cases there : w.helperFile? registry z c with
    | none => rfl
    | some file => simp only [none_ c known file there]

/-- A removal with files is cancelled, or comes to a plan whose classes and files have been looked
for. -/
theorem yields_remove_found {options : Removing} (deletes : options.deletesFiles = true) :
    Yields w (remove options).inquire fun d =>
      d = .cancel ∨ ∃ plan t, d = .carryOut plan ∧ plan.IsFound w.toWorkspace t := by
  refine .next fun path? => ?_
  split
  · exact .pure (.inl rfl)
  · next registry =>
    refine (yields_readText registry).bind fun t read => ?_
    have settle : ∀ classes, Yields w (filesOf registry (Zones.ofText t) classes >>= fun files =>
        confirmed options.sure (RemovingPlan.question ⟨registry, classes, files⟩) false
          (⟨registry, classes, files⟩ : RemovingPlan)) fun d =>
            d = .cancel ∨ ∃ plan t, d = .carryOut plan ∧ plan.IsFound w.toWorkspace t := by
      intro classes
      refine (yields_filesOf registry _ classes).bind fun files found => ?_
      have whole : RemovingPlan.IsFound ⟨registry, classes, files⟩ w.toWorkspace t :=
        ⟨read, found.1, found.2⟩
      rw [confirmed]
      split
      · exact .pure (.inr ⟨_, t, rfl, whole⟩)
      · refine .next fun yes => ?_
        split
        · exact .pure (.inr ⟨_, t, rfl, whole⟩)
        · exact .pure (.inl rfl)
    dsimp only
    rw [deletes]
    -- The classes are picked or given.
    split
    all_goals
      refine .next fun classes? => ?_
      split
      · exact settle _
      · exact .pure (.inl rfl)

end Workflow

/-! ### What is left -/

namespace RemovingPlan

variable {plan : RemovingPlan} {w w' : Workplace} {t edited text : Text} {f : Path}

/-- The registry is left with the edited text. -/
theorem CarriedOut.text_registry (carried : plan.CarriedOut edited w w')
    (meet : w.disk.Meet f plan.registry) (other : ¬w'.IsOwn f)
    (read : w'.disk.readText? f = some text) : text = edited := by
  obtain ⟨ns, led, led'⟩ := meet
  have grown := carried.agrees.locate led
  have own : ¬w'.store.IsPlace w'.disk ns := by
    rintro ⟨file, kept, place⟩
    exact other ⟨file, kept, ns, grown, place⟩
  obtain ⟨moment, written⟩ := carried.written ns led' own
  obtain ⟨ns', moment', led'', there⟩ := readText_eq_ok_iff.mp (readText?_eq_some_iff.mp read)
  obtain rfl : ns = ns' := Except.ok.inj (grown.symm.trans led'')
  rw [written] at there
  cases there
  rfl

/-- A source that is left was a source before, and it is the registry, or it has the same text as
before and is none of the files that were to be deleted. -/
theorem CarriedOut.of_mem_sources (carried : plan.CarriedOut edited w w')
    (sound : w.disk.top.Sound) (folder : w.disk.isFolder w.root = true)
    (readable : w.disk.readText plan.registry = .ok t) (member : f ∈ w'.sources)
    (other : ¬w'.IsOwn f) (read : w'.disk.readText? f = some text) :
    f ∈ w.sources ∧ (w.disk.Meet f plan.registry ∨ w.disk.readText? f = some text ∧
      ¬w.disk.Meet f plan.registry ∧ ∀ file ∈ plan.files, ¬w.disk.Meet f file) := by
  obtain ⟨ns, g, led, there, back⟩ := Workspace.exists_of_mem_sources sound carried.agrees
    carried.root carried.config folder member
  have own : ¬w'.store.IsPlace w'.disk ns := by
    rintro ⟨file, kept, place⟩
    exact other ⟨file, kept, ns, led, place⟩
  obtain ⟨here, moment, known, stood⟩ := readText_eq_ok_iff.mp readable
  by_cases same : here = ns
  · subst same
    obtain ⟨before_, led'⟩ := back _ stood
    exact ⟨before_, .inl ⟨here, led', known⟩⟩
  · have away : ¬w.disk.locate plan.registry = .ok ns := fun led' =>
      same (Except.ok.inj (known.symm.trans led'))
    have kept : ∀ file ∈ plan.files, w.disk.locate file ≠ .ok ns := fun file inside led' =>
      carried.gone file inside ns led' own g there
    have spared : ¬(w.disk.locate plan.registry = .ok ns ∨
        (∃ file ∈ plan.files, w.disk.locate file = .ok ns) ∨ w'.store.IsPlace w'.disk ns) := by
      rintro (led' | ⟨file, inside, led'⟩ | place)
      · exact away led'
      · exact kept file inside led'
      · exact own place
    obtain ⟨before_, led'⟩ := back g ((carried.agrees.files ns spared g).mp there)
    have away_of : ∀ {q}, w.disk.locate q ≠ .ok ns → ¬w.disk.Meet f q := by
      rintro q apart ⟨ns', first, second⟩
      rw [Except.ok.inj (led'.symm.trans first)] at apart
      exact apart second
    exact ⟨before_, .inr ⟨(carried.agrees.readText? led' spared).mp read, away_of away,
      fun file inside => away_of (kept file inside)⟩⟩

/-- The files of the plan are there. -/
theorem IsFound.isFile (found : plan.IsFound w.toWorkspace t) {file : Path}
    (member : file ∈ plan.files) : w.disk.isFile file = true := by
  rw [found.files] at member
  obtain ⟨c, _, there⟩ := List.mem_filterMap.mp member
  obtain ⟨base, _, first⟩ := Option.bind_eq_some_iff.mp there
  exact List.find?_some first

/-- No source but the registry and the files of the plan has a class with a file, or its accessor, as
a word. -/
theorem IsFound.not_hasWord (found : plan.IsFound w.toWorkspace t) (proper : w.disk.top.Proper)
    (folder : w.disk.isFolder w.root = true) (absolute : w.root.isAbsolute = true)
    (member : f ∈ w.sources) (read : w.disk.readText? f = some text)
    (away : ¬w.disk.Meet f plan.registry) (apart : ∀ file ∈ plan.files, ¬w.disk.Meet f file)
    {c : String} (known : c ∈ plan.classes) {file : Path}
    (there : w.helperFile? plan.registry (Zones.ofText t) c = some file) {word : Text}
    (is_word : Text.IsWord word)
    (same : word = c.toList ∨ word = (Naming.accessor c).toList) : ¬text.HasWord word := by
  have inside : file ∈ plan.files := by
    rw [found.files, List.mem_filterMap]
    exact ⟨c, known, there⟩
  obtain ⟨ns, _, led, _⟩ := isFile_iff.mp (Workspace.isFile_of_mem_sources proper member)
  have from_top := Workspace.isAbsolute_of_mem_sources proper folder absolute member
  -- A path that is the same but for its way would lead to the same place.
  have other : ∀ {q ns'}, w.disk.locate q = .ok ns' → ¬w.disk.Meet f q →
      f.normal.same q.normal = false := by
    intro q ns' led' apart
    rw [Bool.eq_false_iff]
    intro same
    obtain rfl := eq_of_same_normal from_top same led led'
    exact apart ⟨ns, led, led'⟩
  obtain ⟨_, _, registry, _⟩ := readText_eq_ok_iff.mp found.read
  obtain ⟨_, _, helper, _⟩ := isFile_iff.mp (found.isFile inside)
  refine Workspace.not_hasWord_of_references (found.unmentioned c known file there) member ?_ read
    is_word same
  intro e among
  rcases List.mem_cons.mp among with rfl | among
  · exact other registry away
  · obtain rfl := List.mem_singleton.mp among
    exact other helper (apart e inside)

/-- The registry is laid out as a roster of helpers. -/
theorem IsClean.exists_listed (clean : plan.IsClean w.toWorkspace t) : ∃ f ls, f.Plain ∧
    Listed f ls ∧ f.config = w.config ∧ t = (Layout.ofListings ls).text f ∧
      ∀ n ∈ plan.classes, ∀ m ∈ plan.classes, n ≠ m → f.Apart n m := by
  obtain ⟨s, changes, plain, allows, settings, rfl, apart⟩ := clean.generated
  obtain ⟨text, listed⟩ := Site.foldl_change plain (Site.listed_nil s.frame) allows
  rw [Layout.text_ofListings_nil plain.frame.template] at text
  exact ⟨s.frame, _, plain.frame, listed, settings, text, apart⟩

/-- An import of the edited registry was there before and binds no class that was taken out. -/
theorem IsClean.exists_of_mem_imports (clean : plan.IsClean w.toWorkspace t) {i : Import}
    (member : i ∈ (Zones.ofText (plan.edited w.toWorkspace t)).imports) :
    ∃ i' ∈ (Zones.ofText t).imports, i'.specifier = i.specifier ∧
      ∀ n ∈ plan.classes, i'.binds n = false := by
  obtain ⟨f, ls, plain, listed, settings, rfl, apart⟩ := clean.exists_listed
  rw [edited, ← settings] at member
  refine listed.exists_of_mem_imports plain clean.distinct (fun n known c inside => ?_) apart member
  have word := (clean.words n known).2.2 c inside
  constructor <;> rintro rfl <;> exact absurd word (by decide)

/-- The accessor that goes with a class is the one that the search looks for. -/
theorem IsClean.accessorOf?_name (clean : plan.IsClean w.toWorkspace t) {c : String}
    (known : c ∈ plan.classes) {a : Accessor} (found : (Zones.ofText t).accessorOf? c = some a) :
    a.name = Naming.accessor c := by
  obtain ⟨f, ls, plain, listed, _, rfl, _⟩ := clean.exists_listed
  refine listed.accessorOf?_name plain ?_ found
  rintro rfl
  exact clean.void known

theorem resolves_congr {w w' : Workspace} {i i' : Import} (root : w'.root = w.root)
    (settings : w'.config = w.config) (same : i'.specifier = i.specifier) {file : Path} :
    w'.Resolves f i file ↔ w.Resolves f i' file := by
  rw [Workspace.Resolves, Workspace.Resolves, root, settings, same]

/-- What the search found of a clean plan makes it safe to carry it out. -/
theorem CarriedOut.isSafe (carried : plan.CarriedOut (plan.edited w.toWorkspace t) w w')
    (found : plan.IsFound w.toWorkspace t) (clean : plan.IsClean w.toWorkspace t)
    (sound : w.disk.top.Sound) (folder : w.disk.isFolder w.root = true)
    (absolute : w.root.isAbsolute = true) : plan.IsSafe w w' t := by
  -- What is left of the registry stands for none of the files.
  have own : ∀ f, f ∈ w.sources ∨ f = plan.registry → w.disk.Meet f plan.registry → ¬w'.IsOwn f →
      ∀ text, w'.disk.readText? f = some text → ∀ i ∈ (Zones.ofText text).imports,
        ∀ file ∈ plan.files, ¬w'.Resolves f i file := by
    intro f among meet other text read i member file inside resolves
    obtain rfl := carried.text_registry meet other read
    obtain ⟨i', stood, same, unbound⟩ := clean.exists_of_mem_imports member
    obtain ⟨c, known, binds⟩ := clean.own f among meet i' stood file inside
      ((resolves_congr carried.root carried.config same).mp resolves)
    simp [unbound c known] at binds
  refine { gone := ?_, unresolved := ?_, unmentioned := ?_ }
  · intro file inside other
    rw [Bool.eq_false_iff]
    intro there
    obtain ⟨ns, g, led, here⟩ := isFile_iff.mp there
    obtain ⟨ns', _, led', _⟩ := isFile_iff.mp (found.isFile inside)
    obtain rfl : ns' = ns := Except.ok.inj ((carried.agrees.locate led').symm.trans led)
    refine carried.gone file inside ns' led' ?_ g here
    rintro ⟨kept, file', place⟩
    exact other ⟨kept, file', ns', led, place⟩
  · intro f among other text read i member file inside resolves
    rcases among with source | rfl
    · obtain ⟨before_, meet | ⟨stood, away, apart⟩⟩ :=
        carried.of_mem_sources sound folder found.read source other read
      · exact own f (.inl before_) meet other text read i member file inside resolves
      · obtain ⟨c, known, there, named⟩ := clean.named f before_ away apart text stood i member file
          inside ((resolves_congr carried.root carried.config rfl).mp resolves)
        refine found.not_hasWord sound.proper folder absolute before_ stood away apart known there
          (clean.words c known).1 (.inl rfl) ?_
        rcases named with ⟨b, bound, same⟩ | has
        · exact Zones.hasWord_of_mem_imports member bound same
        · exact has
    · obtain ⟨ns, _, led, _⟩ := readText_eq_ok_iff.mp found.read
      exact own _ (.inr rfl) ⟨ns, led, led⟩ other text read i member file inside resolves
  · intro f source other away text read c known helper
    obtain ⟨file, there⟩ := Option.isSome_iff_exists.mp helper
    obtain ⟨before_, ⟨ns, led, led'⟩ | ⟨stood, away', apart⟩⟩ :=
      carried.of_mem_sources sound folder found.read source other read
    · exact absurd ⟨ns, carried.agrees.locate led, carried.agrees.locate led'⟩ away
    · have unmentioned : ∀ word, Text.IsWord word → word = c.toList ∨
          word = (Naming.accessor c).toList → ¬text.HasWord word := fun _ =>
        found.not_hasWord sound.proper folder absolute before_ stood away' apart known there
      refine ⟨unmentioned _ (clean.words c known).1 (.inl rfl), fun a taken => ?_⟩
      rw [clean.accessorOf?_name known taken]
      exact unmentioned _ (clean.words c known).2 (.inr rfl)

end RemovingPlan

namespace Session

/-- A clean plan that has been looked for fails before anything is changed or when preferences are
saved, or is carried out safely. -/
theorem act_remove_safe (s : Session) (options : Removing) {plan : RemovingPlan} {t : Text}
    (found : plan.IsFound s.place.toWorkspace t) (clean : plan.IsClean s.place.toWorkspace t)
    (sound : s.place.disk.top.Sound) (folder : s.place.disk.isFolder s.place.root = true)
    (absolute : s.place.root.isAbsolute = true) :
    (∀ why, (s.act ((Workflow.remove options).carryOut plan)).1 = .error why →
      ¬s.place.store.CannotSave why →
        (s.act ((Workflow.remove options).carryOut plan)).2.place = s.place) ∧
    ((s.act ((Workflow.remove options).carryOut plan)).1 = .ok () →
      plan.IsSafe s.place (s.act ((Workflow.remove options).carryOut plan)).2.place t) := by
  rcases Workflow.act_remove options sound found.read (fun file => found.isFile) clean.separate
    clean.outside with ⟨⟨why, failed⟩, same⟩ | ⟨carried, fails⟩
  · refine ⟨fun _ _ _ => same, fun ended => ?_⟩
    rw [failed] at ended
    cases ended
  · exact ⟨fun why failed other => absurd (fails why failed) other,
      fun _ => carried.isSafe found clean sound folder absolute⟩

/-- A removal that deletes files, of which no plan is unclean, fails before it changes anything or
when preferences are saved, and is safe when it is completed. -/
theorem follow_remove_safe (s : Session) (options : Removing)
    (deletes : options.deletesFiles = true) (sound : s.place.disk.top.Sound)
    (folder : s.place.disk.isFolder s.place.root = true)
    (absolute : s.place.root.isAbsolute = true)
    (clean : ∀ plan t, (s.inquire (Workflow.remove options).inquire).1 = .ok (.carryOut plan) →
      s.place.disk.readText plan.registry = .ok t → plan.IsClean s.place.toWorkspace t) :
    (∀ why, (s.follow (Workflow.remove options)).1 = .error why → ¬s.place.store.CannotSave why →
      (s.follow (Workflow.remove options)).2.place = s.place) ∧
    ((s.follow (Workflow.remove options)).1 = .ok .completed → ∃ plan t,
      (s.inquire (Workflow.remove options).inquire).1 = .ok (.carryOut plan) ∧
        s.place.disk.readText plan.registry = .ok t ∧
          plan.IsSafe s.place (s.follow (Workflow.remove options)).2.place t) := by
  have yields := Workflow.yields_remove_found (w := s.place) deletes s.talk
  have same := s.inquire_place (Workflow.remove options).inquire
  rw [follow]
  generalize s.inquire (Workflow.remove options).inquire = inquired at yields same clean
  obtain ⟨why | decision, s'⟩ := inquired
  · exact ⟨fun _ _ _ => same, by simp⟩
  · rcases yields decision rfl with rfl | ⟨plan, t, rfl, found⟩
    · exact ⟨by simp, by simp⟩
    · have clean := clean plan t rfl found.read
      dsimp only at same ⊢
      rw [← same] at found clean sound folder absolute ⊢
      obtain ⟨unchanged, safe⟩ := s'.act_remove_safe options found clean sound folder absolute
      generalize s'.act ((Workflow.remove options).carryOut plan) = acted at unchanged safe
      obtain ⟨why | _, s''⟩ := acted
      · refine ⟨?_, by simp⟩
        rintro _ ⟨⟩ other
        exact unchanged why rfl other
      · exact ⟨by simp, fun _ => ⟨plan, t, rfl, found.read, safe rfl⟩⟩

/-- The only page of a registry is removed together with its file, beside a source that imports
another module. -/
theorem follow_remove_safe_page :
    let site : Site := ⟨⟨{}, "Site"⟩, ⟨"/w"⟩, ⟨"/w/site.ts"⟩⟩
    let page := "export class APage \x7b\x7d\n".toList
    let t := site.textAfter [.add [⟨⟨"/w/a.page.ts"⟩, some page, false⟩]]
    let spec := "import \x7b test \x7d from './test';\n".toList
    let files := ((Folder.empty.put "a.page.ts" (.file ⟨.text page, 0⟩)).put "b.spec.ts"
      (.file ⟨.text spec, 0⟩)).put "site.ts" (.file ⟨.text t, 0⟩)
    let s : Session := ⟨⟨⟨{ top := Folder.empty.put "w" (.folder files) }, ⟨"/w"⟩, {}⟩, {}, 0⟩, {}⟩
    let options : Removing := ⟨some ⟨"/w/site.ts"⟩, ["APage"], true, true⟩
    let plan : RemovingPlan := ⟨⟨"/w/site.ts"⟩, ["APage"], [⟨"/w/a.page.ts"⟩]⟩
    (s.follow (Workflow.remove options)).1 = .ok .completed ∧
      plan.IsSafe s.place (s.follow (Workflow.remove options)).2.place t := by
  intro site page t spec files s options plan
  have plain : site.Plain := Site.plain_default (by decide +kernel) _ (by decide +kernel)
  have fits : site.Fits ⟨⟨"/w/a.page.ts"⟩, some page, false⟩ :=
    Site.fits_of_declared rfl (by decide +kernel)
      (by decide +kernel : isClassName "APage".toList = true) (by decide +kernel)
  have allows : site.AllowsAll [] [.add [⟨⟨"/w/a.page.ts"⟩, some page, false⟩]] :=
    ⟨by simpa [Site.Allows] using fits, trivial⟩
  obtain ⟨text, listed⟩ := Site.foldl_change plain (Site.listed_nil site.frame) allows
  rw [Layout.text_ofListings_nil plain.frame.template] at text
  have roster : site.rosterAfter [.add [⟨⟨"/w/a.page.ts"⟩, some page, false⟩]] =
      [⟨"APage", "./a.page"⟩] := by
    decide +kernel
  rw [Site.rosterAfter] at roster
  rw [roster] at text listed
  have generated : ∃ (s : Site) (changes : List Change), s.Plain ∧ s.AllowsAll [] changes ∧
      s.frame.config = {} ∧ t = s.textAfter changes ∧
        ∀ n ∈ plan.classes, ∀ m ∈ plan.classes, n ≠ m → s.frame.Apart n m :=
    ⟨site, _, plain, allows, rfl, rfl, by simp [plan]⟩
  -- The text as it is laid out is quicker to work with.
  have laid : t = (Layout.ofListings [⟨"APage", "./a.page"⟩]).text site.frame := text
  clear_value t
  subst laid
  let t := (Layout.ofListings [⟨"APage", "./a.page"⟩]).text site.frame
  have evaluated : (s.follow (Workflow.remove options)).1.toOption = some .completed ∧
      (s.inquire (Workflow.remove options).inquire).1.toOption = some (.carryOut plan) := by
    decide +kernel
  have completed := toOption_eq_some_iff.mp evaluated.1
  have chosen := toOption_eq_some_iff.mp evaluated.2
  have sources : s.place.sources = [⟨"/w/a.page.ts"⟩, ⟨"/w/b.spec.ts"⟩, ⟨"/w/site.ts"⟩] := by
    decide +kernel
  have apart : ¬s.place.disk.Meet ⟨"/w/a.page.ts"⟩ ⟨"/w/site.ts"⟩ ∧
      ¬s.place.disk.Meet ⟨"/w/b.spec.ts"⟩ ⟨"/w/site.ts"⟩ := by
    decide +kernel
  have meets : ∀ f ∈ s.place.sources, s.place.disk.Meet f f := by decide +kernel
  have imports : ∀ i ∈ (Zones.ofText t).imports, i.binds "APage" = true ∨
      ¬s.place.Resolves ⟨"/w/site.ts"⟩ i ⟨"/w/a.page.ts"⟩ := by
    dsimp only [t]
    rw [Layout.text, Part.zones_textOf plain.frame (Part.sound_ofListings listed)]
    decide +kernel
  have foreign : ∀ i ∈ (Zones.ofText spec).imports,
      ¬s.place.Resolves ⟨"/w/b.spec.ts"⟩ i ⟨"/w/a.page.ts"⟩ := by
    decide +kernel
  have stored : s.place.disk.readText plan.registry = .ok t :=
    readText_eq_ok_iff.mpr ⟨["w", "site.ts"], 0, by decide +kernel, rfl⟩
  have told : s.place.disk.readText ⟨"/w/b.spec.ts"⟩ = .ok spec :=
    readText_eq_ok_iff.mpr ⟨["w", "b.spec.ts"], 0, by decide +kernel, rfl⟩
  have words : Text.IsWord "APage".toList ∧ Text.IsWord (Naming.accessor "APage").toList := by
    have letters : "APage".toList.all Letter.isWord = true ∧
        (Naming.accessor "APage").toList.all Letter.isWord = true := by
      decide +kernel
    exact ⟨⟨by decide +kernel, List.all_eq_true.mp letters.1⟩,
      ⟨by decide +kernel, List.all_eq_true.mp letters.2⟩⟩
  have clean : plan.IsClean s.place.toWorkspace t := {
    generated
    distinct := by decide +kernel
    words := by simpa [plan] using words
    void := by decide +kernel
    own := by
      intro f among meet i member file deleted resolves
      obtain rfl := List.mem_singleton.mp deleted
      have same : f = ⟨"/w/site.ts"⟩ := by
        rcases among with source | same
        · rw [sources, List.mem_cons, List.mem_pair] at source
          rcases source with rfl | rfl | same
          · exact absurd meet apart.1
          · exact absurd meet apart.2
          · exact same
        · exact same
      subst same
      exact ⟨"APage", by simp [plan], (imports i member).resolve_right (not_not_intro resolves)⟩
    named := by
      intro f source away others text read i member file deleted resolves
      obtain rfl := List.mem_singleton.mp deleted
      have among := source
      rw [sources, List.mem_cons, List.mem_pair] at among
      rcases among with rfl | rfl | rfl
      · exact absurd (meets _ source) (others _ deleted)
      · obtain rfl := Except.ok.inj (told.symm.trans (readText?_eq_some_iff.mp read))
        exact absurd resolves (foreign i member)
      · exact absurd (meets _ source) away
    separate := List.pairwise_singleton ..
    outside := by simpa [plan] using apart.1 }
  have sound : s.place.disk.top.Sound := by
    have entry : ∀ n ∈ ["w", "a.page.ts", "b.spec.ts", "site.ts"], IsEntryName n := by
      decide +kernel
    have inside : files.Sound :=
      ((Folder.sound_empty.put (entry "a.page.ts" (by simp)) (by simp)).put
        (entry "b.spec.ts" (by simp)) (by simp)).put (entry "site.ts" (by simp)) (by simp)
    exact Folder.sound_empty.put (entry "w" (by simp)) fun _ same => Item.folder.inj same ▸ inside
  have only : ∀ plan' t', (s.inquire (Workflow.remove options).inquire).1 = .ok (.carryOut plan') →
      s.place.disk.readText plan'.registry = .ok t' → plan = plan' ∧ t = t' := by
    intro plan' t' planned read
    obtain rfl : plan = plan' := by simpa using Except.ok.inj (chosen.symm.trans planned)
    exact ⟨rfl, Except.ok.inj (stored.symm.trans read)⟩
  obtain ⟨-, safe⟩ := follow_remove_safe s options rfl sound (by decide +kernel) (by decide +kernel)
    fun plan' t' planned read => by
      obtain ⟨rfl, rfl⟩ := only plan' t' planned read
      exact clean
  obtain ⟨plan', t', planned, read, safe⟩ := safe completed
  obtain ⟨rfl, rfl⟩ := only plan' t' planned read
  exact ⟨completed, safe⟩

end Session
end Registrar
