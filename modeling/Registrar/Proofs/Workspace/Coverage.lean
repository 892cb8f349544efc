import Registrar.Proofs.Workspace.Agreement

/-!
What a validation covers. It is kept back by one kind of file only: a source that holds no text and
sounds like a registry, for it is taken for one by its name and then has to be read. Without such a
source there is a report, it counts every readable registry and helper, and it tells of each of them
what is wrong with it.
-/

namespace Registrar

/-- Every readable registry and helper of a workspace is counted, and what is wrong with it is told. -/
structure ValidationReport.Covers (report : ValidationReport) (w : Workspace) : Prop where
  scanned : report.diagnostics.filesScanned = w.sources.length
  registries : report.diagnostics.registries = (w.sources.filter fun file =>
    (w.disk.readText? file).any Recognition.isRegistry).length
  helpers : report.diagnostics.helpers = (w.sources.filter fun file =>
    (w.disk.readText? file).any fun text => !Recognition.isRegistry text).length
  /-- Registries on one line of folders are told of, each pair once. -/
  nested : ∀ a b f, [a, b].Sublist w.registries → Workspace.nestedPair w.config a b = some f →
    f ∈ report.findings
  orphaned : ∀ file ∈ w.sources, ∀ text, w.disk.readText? file = some text →
    Recognition.isRegistry text = true → ∀ o ∈ w.orphansIn file (Zones.ofText text),
      .of w.config file (.orphaned o.className o.specifier) ∈ report.findings
  unresolved : ∀ file guess, ⟨file, .guessed guess⟩ ∈ w.helperFiles →
    Workspace.isHelperNamed w.config file = true → .of w.config file (.unresolved guess) ∈ report.findings
  duplicate : ∀ first file c, [⟨first, .declared c⟩, ⟨file, .declared c⟩].Sublist w.helperFiles →
    ∃ other, .of w.config file (.duplicate c other) ∈ report.findings
  circular : ∀ file c, ⟨file, .declared c⟩ ∈ w.helperFiles → ∀ text, w.disk.readText? file = some text →
    ∀ registry ∈ w.registries, importsOwnAccessor w.config w.root registry file text
      (Naming.accessor c) = true →
        .of w.config file (.circular (Naming.accessor c) registry) ∈ report.findings
  /-- A helper is told of as unregistered, or a readable registry hands out its class or its file. -/
  registered : ∀ file c, ⟨file, .declared c⟩ ∈ w.helperFiles →
    Workspace.isHelperNamed w.config file = true →
      .of w.config file (.unregistered c) ∈ report.findings ∨
        ∃ registry ∈ w.sources, ∃ text, w.disk.readText? registry = some text ∧
          Recognition.isRegistry text = true ∧ ∃ e ∈ (Zones.ofText text).helpers, e.2 = c ∨
            ∃ there, w.helperFile? registry (Zones.ofText text) e.2 = some there ∧ file.same there = true

namespace Workspace

variable {w : Workspace} {p : Preferences} {registryPaths : List Path}
  {registries : List (Path × Zones)} {file registry : Path} {text : Text}

/-- A source holds no text but has the name of a registry. -/
def garbled (w : Workspace) (file : Path) : Bool :=
  (w.disk.readText? file).isNone && file.soundsLikeRegistry

/-! ### Reading the registries -/

theorem isRegistry_of_read (read : w.disk.readText? file = some text) :
    w.isRegistry file = Recognition.isRegistry text := by
  rw [isRegistry, kind_eq_kindOf read, kindOf]
  split
  · next sign => simp [sign]
  · next plain =>
    rw [Bool.eq_false_iff.mpr plain]
    split <;> rfl

theorem isRegistry_of_unread (unread : w.disk.readText? file = none) :
    w.isRegistry file = file.soundsLikeRegistry := by
  rw [isRegistry, kind, unread]
  cases file.soundsLikeRegistry <;> rfl

/-- The registries are read up to the first one that holds no text. -/
theorem readRegistries_cases (w : Workspace) (registryPaths : List Path) :
    match registryPaths.find? fun file => (w.disk.readText? file).isNone with
    | some file => ∃ why, w.disk.readText file = .error why ∧
        w.readRegistries registryPaths = .error (.file .read file why)
    | none => ∃ registries, w.readRegistries registryPaths = .ok registries := by
  induction registryPaths with
  | nil => exact ⟨[], rfl⟩
  | cons file rest ih =>
    rw [readRegistries, List.mapM_cons, ← readRegistries]
    cases read : w.disk.readText file with
    | error why =>
      have here : (file :: rest).find? (fun file => (w.disk.readText? file).isNone) = some file :=
        List.find?_cons_of_pos (by simp [Disk.readText?, read, Except.toOption])
      rw [here]
      exact ⟨why, read, by simp [Workspace.read, read, Except.mapError, Except.map, bind, Except.bind]⟩
    | ok text =>
      have here : (file :: rest).find? (fun file => (w.disk.readText? file).isNone) =
          rest.find? fun file => (w.disk.readText? file).isNone :=
        List.find?_cons_of_neg (by simp [Disk.readText?, read, Except.toOption])
      rw [here]
      have first : (w.read file).map (fun text => (file, Zones.ofText text)) =
          .ok (file, Zones.ofText text) := by
        simp [Workspace.read, read, Except.mapError, Except.map]
      rw [first]
      revert ih
      cases rest.find? fun file => (w.disk.readText? file).isNone with
      | some later =>
        rintro ⟨why, unread, stopped⟩
        exact ⟨why, unread, by rw [stopped]; rfl⟩
      | none =>
        rintro ⟨registries, done⟩
        exact ⟨(file, Zones.ofText text) :: registries, by rw [done]; rfl⟩

/-- The first registry that holds no text is the first source that is garbled. -/
theorem find?_registries (w : Workspace) :
    (w.registries.find? fun file => (w.disk.readText? file).isNone) = w.sources.find? w.garbled := by
  rw [registries, List.find?_filter]
  congr 1
  funext file
  cases read : w.disk.readText? file with
  | none => simp [garbled, read, isRegistry_of_unread read]
  | some text => simp [garbled, read]

/-! ### What is told -/

theorem mem_nestedPairs {config : Config} {a b : Path} {f : Finding}
    (pair : nestedPair config a b = some f) (order : [a, b].Sublist registryPaths) :
    f ∈ nestedPairs config registryPaths := by
  induction registryPaths with
  | nil => simp at order
  | cons c rest ih =>
    rw [nestedPairs, List.mem_append]
    rcases List.sublist_cons_iff.mp order with later | ⟨tail, same, later⟩
    · exact .inr (ih later)
    · obtain ⟨rfl, rfl⟩ := List.cons.inj same
      exact .inl (List.mem_filterMap.mpr ⟨b, List.singleton_sublist.mp later, pair⟩)

section
variable {registered : Registered} {helpers : List HelperFile} {seen : List (String × Path)} {c : String}

/-- What is wrong with a helper is told, whatever came before it. -/
theorem exists_subset_allHelperFindings {h : HelperFile} (member : h ∈ helpers) :
    ∃ first?, w.helperFindings registryPaths registered first? h ⊆
      w.allHelperFindings registryPaths registered seen helpers := by
  induction helpers generalizing seen with
  | nil => simp at member
  | cons h' rest ih =>
    rw [allHelperFindings]
    rcases List.mem_cons.mp member with rfl | later
    · split <;> exact ⟨_, List.subset_append_left ..⟩
    · split
      · obtain ⟨first?, told⟩ := ih later
        exact ⟨first?, fun f inside => List.mem_append_right _ (told inside)⟩
      · obtain ⟨first?, told⟩ := ih later
        exact ⟨first?, fun f inside => List.mem_append_right _ (told inside)⟩

/-- A class that was declared before is told of again. -/
theorem exists_duplicate_of_seen (known : (seen.lookup c).isSome = true)
    (member : ⟨file, .declared c⟩ ∈ helpers) : ∃ other, .of w.config file (.duplicate c other) ∈
      w.allHelperFindings registryPaths registered seen helpers := by
  induction helpers generalizing seen with
  | nil => simp at member
  | cons h rest ih =>
    rw [allHelperFindings]
    rcases List.mem_cons.mp member with rfl | later
    · obtain ⟨other, first⟩ := Option.isSome_iff_exists.mp known
      exact ⟨other, List.mem_append_left _ (by simp [helperFindings, first])⟩
    · split
      · obtain ⟨other, told⟩ := ih known later
        exact ⟨other, List.mem_append_right _ told⟩
      · next className _ =>
        have known' : (List.lookup c (if (seen.lookup className).isSome then seen
            else (className, h.file) :: seen)).isSome = true := by
          split
          · exact known
          · rw [List.lookup_cons]
            split
            · rfl
            · exact known
        obtain ⟨other, told⟩ := ih known' later
        exact ⟨other, List.mem_append_right _ told⟩

theorem exists_duplicate {first : Path}
    (order : [⟨first, .declared c⟩, ⟨file, .declared c⟩].Sublist helpers) :
    ∃ other, .of w.config file (.duplicate c other) ∈
      w.allHelperFindings registryPaths registered seen helpers := by
  induction helpers generalizing seen with
  | nil => simp at order
  | cons h rest ih =>
    rcases List.sublist_cons_iff.mp order with later | ⟨tail, same, later⟩
    · rw [allHelperFindings]
      split
      · obtain ⟨other, told⟩ := ih later
        exact ⟨other, List.mem_append_right _ told⟩
      · obtain ⟨other, told⟩ := ih later
        exact ⟨other, List.mem_append_right _ told⟩
    · obtain ⟨rfl, rfl⟩ := List.cons.inj same
      rw [allHelperFindings]
      have known : (List.lookup c (if (seen.lookup c).isSome then seen
          else (c, first) :: seen)).isSome = true := by
        split
        · assumption
        · simp
      obtain ⟨other, told⟩ := exists_duplicate_of_seen known (List.singleton_sublist.mp later)
      exact ⟨other, List.mem_append_right _ told⟩

end

/-- The report of a validation that has read the registries. -/
theorem exists_report (p : Preferences)
    (read : w.settled.readRegistries w.settled.registries = .ok registries) :
    ∃ report, w.validate p = .ok report ∧
      (∀ f, f ∈ nestedPairs w.config w.settled.registries ∨
        f ∈ w.settled.orphanFindings registries ∨
        f ∈ w.settled.allHelperFindings w.settled.registries (w.settled.registered registries) []
          w.settled.helperFiles → f ∈ report.findings) ∧
      report.diagnostics.filesScanned = w.settled.sources.length ∧
      report.diagnostics.registries = w.settled.registries.length ∧
      report.diagnostics.helpers = w.settled.helperFiles.length := by
  have read' := read
  rw [settled] at read'
  obtain ⟨report, valid⟩ : ∃ report, w.validate p = .ok report := by
    rw [validate]
    simp only [read', bind, Except.bind]
    exact ⟨_, rfl⟩
  refine ⟨report, valid, ?_⟩
  rw [validate] at valid
  simp only [read', bind, Except.bind, pure, Except.pure, Except.ok.injEq] at valid
  subst valid
  refine ⟨fun f told => ?_, rfl, rfl, rfl⟩
  simp only [(sorted_perm ..).mem_iff, List.mem_append]
  rcases told with told | told | told
  · exact .inl (.inl (.inl told))
  · exact .inl (.inl (.inr told))
  · exact .inl (.inr told)

/-! ### Counting -/

/-- Without garbled sources the registries are those whose text is that of one. -/
theorem registries_eq (whole : ∀ file ∈ w.sources, w.garbled file = false) : w.registries =
    w.sources.filter fun file => (w.disk.readText? file).any Recognition.isRegistry := by
  refine List.filter_congr fun file source => ?_
  cases read : w.disk.readText? file with
  | none =>
    have plain := whole file source
    rw [garbled, read] at plain
    simpa [isRegistry_of_unread read] using plain
  | some text => simp [isRegistry_of_read read]

theorem length_helperFiles (w : Workspace) : w.helperFiles.length = (w.sources.filter fun file =>
    (w.disk.readText? file).any fun text => !Recognition.isRegistry text).length := by
  rw [helperFiles, ← List.countP_eq_length_filter, List.length_filterMap_eq_countP]
  refine List.countP_congr fun file _ => ?_
  cases read : w.disk.readText? file with
  | none =>
    rw [kind, read]
    cases file.soundsLikeRegistry <;> simp
  | some text =>
    rw [kind_eq_kindOf read, kindOf]
    by_cases sign : Recognition.isRegistry text = true
    · simp [sign]
    · cases Recognition.className? text <;> simp [sign]

/-! ### The report -/

theorem readText?_of_read (read : w.read file = .ok text) : w.disk.readText? file = some text := by
  rw [Workspace.read] at read
  cases there : w.disk.readText file with
  | error why => simp [there, Except.mapError] at read
  | ok t =>
    simp only [there, Except.mapError, Except.ok.injEq] at read
    rw [Disk.readText?_eq_some_iff, there, read]

/-- A registry that was read has a readable text, which is that of a registry. -/
theorem exists_text_of_mem {e : Path × Zones} (whole : ∀ file ∈ w.sources, w.garbled file = false)
    (read : w.readRegistries w.registries = .ok registries) (member : e ∈ registries) :
    e.1 ∈ w.sources ∧ ∃ text, w.disk.readText? e.1 = some text ∧
      Recognition.isRegistry text = true ∧ e.2 = Zones.ofText text := by
  obtain ⟨t, found, zones⟩ := (mem_of_readRegistries read).1 e member
  have text := readText?_of_read found
  obtain ⟨r, known, mapped⟩ := (mem_of_mapM_eq_ok read).1 e member
  have here : e.1 = r := by
    cases read : w.read r with
    | error why => simp [read, Except.map] at mapped
    | ok t =>
      simp only [read, Except.map, Except.ok.injEq] at mapped
      rw [← mapped]
  rw [← here, registries_eq whole, List.mem_filter, text] at known
  exact ⟨known.1, t, text, by simpa using known.2, zones⟩

theorem covers_of_validate (p : Preferences)
    (whole : ∀ file ∈ w.settled.sources, w.settled.garbled file = false)
    (read : w.settled.readRegistries w.settled.registries = .ok registries) :
    ∃ report, w.validate p = .ok report ∧ report.Covers w.settled := by
  obtain ⟨report, valid, told, scanned, counted, counted'⟩ := exists_report p read
  refine ⟨report, valid, ?_⟩
  have helper : ∀ {file : Path} {identity : ClassIdentity}, ⟨file, identity⟩ ∈ w.settled.helperFiles →
      ∃ first?, ∀ f ∈ w.settled.helperFindings w.settled.registries (w.settled.registered registries)
        first? ⟨file, identity⟩, f ∈ report.findings := by
    intro file identity member
    obtain ⟨first?, subset⟩ := exists_subset_allHelperFindings member
    exact ⟨first?, fun f inside => told f (.inr (.inr (subset inside)))⟩
  constructor
  case scanned => exact scanned
  case registries => rw [counted, registries_eq whole]
  case helpers => rw [counted', length_helperFiles]
  case nested => exact fun a b f order pair => told f (.inl (mem_nestedPairs pair order))
  case orphaned =>
    intro file source text found sign o orphan
    have registry : file ∈ w.settled.registries :=
      List.mem_filter.mpr ⟨source, by rw [isRegistry_of_read found, sign]⟩
    obtain ⟨t, found', member⟩ := (mem_of_readRegistries read).2 file registry
    obtain rfl := Option.some.inj ((readText?_of_read found').symm.trans found)
    refine told _ (.inr (.inl (List.mem_flatMap.mpr ⟨_, member, List.mem_map.mpr ⟨o, orphan, rfl⟩⟩)))
  case unresolved =>
    intro file guess member named
    obtain ⟨first?, told⟩ := helper member
    exact told _ (by simp [helperFindings, named])
  case duplicate =>
    intro first file c order
    obtain ⟨other, member⟩ := exists_duplicate order
    exact ⟨other, told _ (.inr (.inr member))⟩
  case circular =>
    intro file c member text found registry source own
    obtain ⟨first?, told⟩ := helper member
    have circular : Finding.of w.settled.config file (.circular (Naming.accessor c) registry) ∈
        w.settled.circularFindings w.settled.registries ⟨file, .declared c⟩ := by
      rw [circularFindings, found]
      exact List.mem_map.mpr ⟨registry, List.mem_filter.mpr ⟨source, own⟩, rfl⟩
    exact told _ (List.mem_append_left _ (List.mem_append_right _ circular))
  case registered =>
    intro file c member named
    obtain ⟨first?, told⟩ := helper member
    by_cases handed : (w.settled.registered registries).hasFile file = true ∨
        c ∈ (w.settled.registered registries).classes
    · right
      rcases handed with handed | handed
      · obtain ⟨there, inside, same⟩ := List.any_eq_true.mp handed
        obtain ⟨e, known, inside⟩ := List.mem_flatMap.mp inside
        obtain ⟨a, of_helpers, resolved⟩ := List.mem_filterMap.mp inside
        obtain ⟨source, text, found, sign, zones⟩ := exists_text_of_mem whole read known
        rw [zones] at of_helpers resolved
        exact ⟨e.1, source, text, found, sign, a, of_helpers, .inr ⟨there, resolved, same⟩⟩
      · obtain ⟨e, known, inside⟩ := List.mem_flatMap.mp handed
        obtain ⟨a, of_helpers, same⟩ := List.mem_map.mp inside
        obtain ⟨source, text, found, sign, zones⟩ := exists_text_of_mem whole read known
        rw [zones] at of_helpers
        exact ⟨e.1, source, text, found, sign, a, of_helpers, .inl same⟩
    · left
      simp only [not_or, Bool.not_eq_true] at handed
      refine told _ (List.mem_append_right _ ?_)
      rw [named, handed.1]
      simp [handed.2]

/-- Validation is total but for garbled sources: the first of them, if there is one, is what the
validation fails at; without one there is a report that covers the workspace. -/
theorem validate_total (w : Workspace) (p : Preferences) :
    match w.settled.sources.find? w.settled.garbled with
    | some file => ∃ why, w.disk.readText file = .error why ∧
        w.validate p = .error (.file .read file why)
    | none => ∃ report, w.validate p = .ok report ∧ report.Covers w.settled := by
  have read := w.settled.readRegistries_cases w.settled.registries
  rw [find?_registries] at read
  cases first : w.settled.sources.find? w.settled.garbled with
  | none =>
    rw [first] at read
    obtain ⟨registries, read⟩ := read
    have whole : ∀ file ∈ w.settled.sources, w.settled.garbled file = false := by
      simpa using List.find?_eq_none.mp first
    exact covers_of_validate p whole read
  | some file =>
    rw [first] at read
    obtain ⟨why, unread, stopped⟩ := read
    rw [settled] at stopped
    exact ⟨why, unread, by rw [validate]; simp [stopped, bind, Except.bind]⟩

-- One file that is no text and sounds like a registry keeps a validation from telling anything.
example :
    let disk : Disk := ⟨.folder "w" (.file "a.page.ts" ⟨.text "export class APage \x7b\x7d".toList, 0⟩
      (.file "registry.ts" ⟨.bytes [0xff], 0⟩ .empty)) .empty, none, 1⟩
    Workspace.validate ⟨disk, ⟨"/w"⟩, {}⟩ {} =
      .error (.file .read ⟨"/w/registry.ts"⟩ .invalidData) := by
  decide +kernel

end Workspace
end Registrar
