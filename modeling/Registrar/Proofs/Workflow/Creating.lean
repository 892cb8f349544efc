import Registrar.Proofs.Disk.Again
import Registrar.Proofs.Session.Heard
import Registrar.Proofs.Workflow.Deleting
import Registrar.Proofs.Workspace.Nested

/-!
New registries and nesting. Where nesting is prevented, a folder is settled on only if no registry is
reported around it or the user has insisted; so a registry that is written into that folder is in no
nested pair of a validation, unless it is the preferences that have made a registry of their file.
-/

namespace Registrar

open Disk

/-- A registry was asked to be made where it nests. -/
def Answer.insists : Answer := .one (some 0)

namespace Workplace

/-- What is reported around a folder for a new registry, with the root as the boundary above. -/
def around (w : Workplace) (folder : Path) : Nesting :=
  w.nesting folder (if folder.isUnder w.root then some w.root else none)

end Workplace

namespace Inquiry

variable {w : Workplace} {talk : Talk} {s' : Session} {folder place : Path} {tries : Nat}

/-- A folder that is given or asked for is read from the root. -/
theorem resolved_of_inquire_folder {words : String} {choice? : Option Path}
    (ended : Session.inquire ⟨w, talk⟩ (Inquiry.folder words) = (.ok choice?, s')) :
    ∀ p, choice? = some p → ∃ given, p = w.resolve given := by
  rw [Inquiry.folder, inquire_read_bind] at ended
  obtain ⟨answer?, _, _, ended⟩ := inquire_bind_eq_ok_iff.mp ended
  obtain ⟨rfl, -⟩ := inquire_pure_eq_ok_iff.mp ended
  intro p chosen
  obtain ⟨given, -, rfl⟩ := Option.map_eq_some_iff.mp chosen
  exact ⟨given, rfl⟩

/-- One round of settling on a folder. -/
theorem inquire_settledFolder_succ :
    Session.inquire ⟨w, talk⟩ (settledFolder (tries + 1) folder) =
      if (w.around folder).isNested = false then (.ok (some folder), ⟨w, talk⟩)
      else Session.inquire
        ⟨w, { talk with events := talk.events ++
          [.said .warning (nestingWords w folder (w.around folder))] }⟩ (do
        match ← one "How do you want to continue?" NestingChoice.words
            [.proceed, .relocate, .cancel] with
        | some .proceed => return some folder
        | some .relocate =>
          match ← Inquiry.folder registryFolderWords with
          | some other => settledFolder tries other
          | none => return none
        | _ => return none) := by
  rw [settledFolder, inquire_read_bind]
  change Session.inquire ⟨w, talk⟩ (if !(w.around folder).isNested then _ else _) = _
  cases (w.around folder).isNested <;> rfl

/-- Only a user who insists is given a folder around which registries are reported. -/
theorem of_inquire_settledFolder
    (ended : Session.inquire ⟨w, talk⟩ (settledFolder tries folder) = (.ok (some place), s')) :
    (place = folder ∨ ∃ given, place = w.resolve given) ∧ ∃ used, talk.Heard used s'.talk ∧
      (.insists ∉ used → (w.around place).isNested = false) := by
  induction tries generalizing talk folder with
  | zero => exact absurd ended (inquire_throw_ne_ok _)
  | succ tries ih =>
    rw [inquire_settledFolder_succ] at ended
    split at ended
    · next free =>
      obtain ⟨same, rfl⟩ := Prod.mk.injEq .. ▸ ended
      obtain rfl := Option.some.inj (Except.ok.inj same)
      exact ⟨.inl rfl, [], .of_eq rfl, fun _ => free⟩
    · obtain ⟨choice?, m, asked, ended⟩ := inquire_bind_eq_ok_iff.mp ended
      obtain ⟨answer?, first, -, picked⟩ := heard_of_inquire_one asked
      rw [place_of_inquire asked] at ended
      rcases choice? with _ | (_ | _ | _)
      · cases (inquire_pure_eq_ok_iff.mp ended).1
      · obtain ⟨same, rfl⟩ := inquire_pure_eq_ok_iff.mp ended
        obtain rfl := Option.some.inj same
        obtain ⟨n, rfl, there⟩ := picked _ rfl
        -- Only the first of the choices is to insist.
        have first_place : n = 0 := by
          rcases n with _ | _ | _ | n <;> simp at there ⊢
        exact ⟨.inl rfl, _, first, fun calm => absurd (by simp [Answer.insists, first_place]) calm⟩
      · obtain ⟨other?, m, asked', ended⟩ := inquire_bind_eq_ok_iff.mp ended
        obtain ⟨answers, second⟩ := Listens.folder registryFolderWords _ _ _ asked'
        have resolved := resolved_of_inquire_folder asked'
        rw [place_of_inquire asked'] at ended
        cases other? with
        | none => cases (inquire_pure_eq_ok_iff.mp ended).1
        | some other =>
          obtain ⟨origin, used, rest, free⟩ := ih ended
          refine ⟨.inr (origin.elim (fun same => same ▸ resolved other rfl) id), _,
            first.trans (second.trans rest), fun calm => free fun member => calm ?_⟩
          exact List.mem_append_right _ (List.mem_append_right _ member)
      · cases (inquire_pure_eq_ok_iff.mp ended).1

theorem Listens.named (given? : Option String) (words : String)
    (check : String → Except NameFault Unit) : Listens w (named given? words check) := by
  cases given? with
  | none => exact .text _ _
  | some given =>
    rw [Inquiry.named]
    split
    · exact .pure _
    · exact .throw _

theorem Listens.folderOr (given? : Option Path) (words : String) :
    Listens w (folderOr given? words) := by
  cases given? with
  | none => exact .folder _
  | some given => exact .read (.pure _)

theorem resolved_of_inquire_folderOr {given? : Option Path} {words : String}
    (ended : Session.inquire ⟨w, talk⟩ (folderOr given? words) = (.ok (some place), s')) :
    ∃ given, place = w.resolve given := by
  cases given? with
  | none => exact resolved_of_inquire_folder ended _ rfl
  | some given =>
    rw [folderOr, inquire_read_bind] at ended
    obtain ⟨same, -⟩ := inquire_pure_eq_ok_iff.mp ended
    exact ⟨given, (Option.some.inj same).symm⟩

/-- The plan of a new registry: an entry of a folder read from the root, where nothing stands. Where
nesting is prevented, only a user who insists gets a folder around which registries are reported. -/
theorem of_inquire_newRegistry {options : NewRegistry} {decision : Decision RegistryPlan}
    (ended : Session.inquire ⟨w, talk⟩ (Workflow.newRegistry options).inquire = (.ok decision, s'))
    (goes_on : decision ≠ .cancel) : ∃ plan, decision = .carryOut plan ∧
      (∃ given, plan.folder = w.resolve given) ∧ (∃ name, plan.path = plan.folder.child name) ∧
      w.disk.holds plan.path = false ∧ ∃ used, talk.Heard used s'.talk ∧
        (w.config.preventNesting = true → .insists ∉ used →
          (w.around plan.folder).isNested = false) := by
  rw [Workflow.newRegistry, inquire_read_bind] at ended
  obtain ⟨folder?, _, asked, ended⟩ := inquire_bind_eq_ok_iff.mp ended
  obtain ⟨answers₁, first⟩ := Listens.folderOr _ _ _ _ _ asked
  rw [place_of_inquire asked] at ended
  cases folder? with
  | none => exact absurd (inquire_pure_eq_ok_iff.mp ended).1.symm goes_on
  | some folder =>
  have given := resolved_of_inquire_folderOr asked
  obtain ⟨name?, _, asked, ended⟩ := inquire_bind_eq_ok_iff.mp ended
  obtain ⟨answers₂, second⟩ := Listens.named _ _ _ _ _ _ asked
  rw [place_of_inquire asked] at ended
  cases name? with
  | none => exact absurd (inquire_pure_eq_ok_iff.mp ended).1.symm goes_on
  | some name =>
  dsimp -zeta only at ended
  extract_lets stem finish at ended
  -- Whatever the folder was settled on by, the rest is the same.
  have planned : ∀ (settled? : Option Path) (m : Session),
      m.inquire (finish settled?) = (.ok decision, s') → ∃ plan, decision = .carryOut plan ∧
        settled? = some plan.folder ∧ (∃ name, plan.path = plan.folder.child name) ∧
          w.disk.holds plan.path = false ∧ s' = m := by
    intro settled? m ended
    cases settled? with
    | none => exact absurd (inquire_pure_eq_ok_iff.mp ended).1.symm goes_on
    | some folder =>
      dsimp only [finish] at ended
      split at ended
      · exact absurd ended (inquire_throw_ne_ok _)
      · split at ended
        · exact absurd ended (inquire_throw_ne_ok _)
        · next free =>
          obtain ⟨rfl, rfl⟩ := inquire_pure_eq_ok_iff.mp ended
          exact ⟨_, rfl, rfl, ⟨_, rfl⟩, by simpa using free, rfl⟩
  split at ended
  · rw [inquire_patience_bind] at ended
    obtain ⟨settled?, _, asked, ended⟩ := inquire_bind_eq_ok_iff.mp ended
    obtain ⟨plan, rfl, rfl, named, free, rfl⟩ := planned _ _ ended
    obtain ⟨origin, used, third, calm⟩ := of_inquire_settledFolder asked
    refine ⟨plan, rfl, origin.elim (fun same => same ▸ given) id, named, free, _,
      first.trans (second.trans third), fun _ unforced => calm fun member => unforced ?_⟩
    exact List.mem_append_right _ (List.mem_append_right _ member)
  · next allowed =>
    obtain ⟨plan, rfl, same, named, free, rfl⟩ := planned (some folder) _ ended
    obtain rfl := Option.some.inj same
    exact ⟨plan, rfl, given, named, free, _, first.trans second,
      fun prevents => absurd prevents allowed⟩

end Inquiry

namespace Action

variable {α β : Type} {s s' : Session}

theorem act_bind_eq_ok_iff {a : Action α} {f : α → Action β} {b : β} :
    s.act (a >>= f) = (.ok b, s') ↔ ∃ x m, s.act a = (.ok x, m) ∧ m.act (f x) = (.ok b, s') := by
  rw [act_bind]
  constructor
  · intro ended
    split at ended
    · next x m first => exact ⟨x, m, first, ended⟩
    · cases ended
  · rintro ⟨x, m, first, second⟩
    rw [first]
    exact second

theorem act_place_bind (f : Workplace → Action β) : s.act (place >>= f) = s.act (f s.place) := rfl

theorem act_atPath_eq_ok_iff {deed : Deed} {path : Path} {f : Disk → Except FileError Disk} :
    s.act (atPath deed path f) = (.ok (), s') ↔
      ∃ d, f s.place.disk = .ok d ∧ s' = { s with place := { s.place with disk := d } } := by
  cases changed : f s.place.disk with
  | error why =>
    have ended : s.act (atPath deed path f) = (.error (.file deed path why), s) :=
      act_changeDisk_error (by rw [changed]; rfl)
    simp [ended]
  | ok d =>
    have ended : s.act (atPath deed path f) =
        (.ok (), { s with place := { s.place with disk := d } }) :=
      act_changeDisk_ok (by rw [changed]; rfl)
    simp [ended, eq_comm]

end Action

open Action in
/-- A new registry is carried out in three steps: its folder, its file, and the preferences. -/
theorem Workflow.of_act_newRegistry {s s' : Session} {options : NewRegistry} {plan : RegistryPlan}
    (carried : s.act ((newRegistry options).carryOut plan) = (.ok (), s')) : ∃ d₁ d₂,
      s.place.disk.makeFolders plan.folder = .ok d₁ ∧
      d₁.write plan.path (Source.registry s.place.config plan.name).toList = .ok d₂ ∧
      ({ s.place with disk := d₂ } : Workplace).upsert plan.path plan.label? = (.ok (), s'.place) ∧
      s'.talk.respondent = s.talk.respondent := by
  have steps : (newRegistry options).carryOut plan =
      place >>= fun w => atPath .create plan.folder (·.makeFolders plan.folder) >>= fun _ =>
        atPath .write plan.path (·.write plan.path (Source.registry w.config plan.name).toList) >>=
          fun _ => change (·.upsert plan.path plan.label?) >>= fun _ =>
            liftM (Talk.say .success
              ("Created registry " ++ plan.name ++ " at " ++ w.shown plan.path)) := rfl
  rw [steps, act_place_bind] at carried
  obtain ⟨_, _, first, carried⟩ := act_bind_eq_ok_iff.mp carried
  obtain ⟨d₁, made, rfl⟩ := act_atPath_eq_ok_iff.mp first
  obtain ⟨_, _, second, carried⟩ := act_bind_eq_ok_iff.mp carried
  obtain ⟨d₂, written, rfl⟩ := act_atPath_eq_ok_iff.mp second
  obtain ⟨_, _, changed, carried⟩ := act_bind_eq_ok_iff.mp carried
  rw [act_change, Prod.mk.injEq] at changed
  obtain ⟨saved, rfl⟩ := changed
  cases carried
  exact ⟨d₁, d₂, made, written, Prod.ext saved rfl, rfl⟩

namespace Workspace

variable {w w' : Workspace} {p : Path} {t : Text}

/-- A file that can be read is told to be a registry by its text. -/
theorem isRegistry_of_readText (read : w.disk.readText p = .ok t) :
    w.isRegistry p = Recognition.isRegistry t := by
  rw [isRegistry, kind, readText?_eq_some_iff.mpr read]
  dsimp only
  rw [kindOf]
  cases Recognition.isRegistry t with
  | true => rfl
  | false => cases Recognition.className? t <;> rfl

theorem isRegistry_congr (text : w'.disk.readText? p = w.disk.readText? p)
    (config : w'.config = w.config) : w'.isRegistry p = w.isRegistry p := by
  rw [isRegistry, isRegistry, kind, kind, text, config]

end Workspace

namespace Workplace

/-- A new registry has been made: nothing but its file and that of the preferences is other than it
was, and its folder is there. -/
structure Creates (w w' : Workplace) (plan : RegistryPlan) (place : List String) : Prop where
  root : w'.root = w.root
  config : w'.config = w.config
  file : w'.store.file? = w.store.file?
  agrees : Disk.Agrees (fun ns => ns = place ∨ w'.store.IsPlace w'.disk ns) w.disk w'.disk
  led : w'.disk.locate plan.path = .ok place
  isFile : w'.disk.isFile plan.path = true
  saved : ∀ own, w.store.file? = some own → ∃ t, w'.disk.readText own = .ok t
  folder : plan.folder.components.isEmpty = true ∨ w'.disk.isFolder plan.folder = true

theorem exists_creates {w w' : Workplace} {plan : RegistryPlan} {d₁ d₂ : Disk} {t : Text}
    (made : w.disk.makeFolders plan.folder = .ok d₁) (written : d₁.write plan.path t = .ok d₂)
    (saved : ({ w with disk := d₂ } : Workplace).upsert plan.path plan.label? = (.ok (), w')) :
    ∃ place, w.Creates w' plan place := by
  obtain ⟨place, alters, led⟩ := exists_of_write written
  obtain ⟨saves, -⟩ := ({ w with disk := d₂ } : Workplace).saves_remember
    (·.upsert w.clock plan.path plan.label?)
  have result := congrArg Prod.snd saved
  dsimp only [upsert] at result
  rw [result] at saves
  have there : d₂.isFile plan.path = true :=
    isFile_iff.mpr ⟨place, _, led, by rw [alters.shape, if_pos rfl]⟩
  obtain ⟨kept, save, store⟩ : ∃ kept : Store, kept.save d₂ = (.ok (), w'.disk) ∧
      kept.file? = w.store.file? := by
    refine ⟨{ w.store with
      preferences := w.store.preferences.upsert w.clock plan.path plan.label? }, ?_, rfl⟩
    rw [upsert, remember] at saved
    generalize Store.save _ _ = ended at saved ⊢
    obtain ⟨result, d⟩ := ended
    cases saved
    rfl
  refine ⟨place, saves.root, saves.config, saves.file, ?_, saves.agrees.locate led,
    Store.isFile_of_save save there, fun own file => ?_, ?_⟩
  · exact ((agrees_of_makeFoldersUp made).mono fun _ => False.elim).trans
      ((alters.agrees.mono fun _ => .inl).trans (saves.agrees.mono fun _ => .inr))
  · obtain ⟨d₃, -, written⟩ := (Store.save_eq_ok_iff (store.trans file)).mp save
    exact ⟨_, readText_of_write written⟩
  · refine (isFolder_of_makeFolders made).imp id fun folder => ?_
    obtain ⟨names, led, at_⟩ := isFolder_iff.mp folder
    exact isFolder_iff.mpr ⟨names, saves.agrees.locate (alters.grows.locate led),
      saves.agrees.folders _ (alters.grows.folders _ at_)⟩

variable {w w' : Workplace} {plan : RegistryPlan} {place ms : List String} {r : Path}

/-- A registry of the walk that was not made just now was one before. -/
theorem Creates.mem_registries (created : w.Creates w' plan place) (sound : w.disk.top.Sound)
    (top : ∀ m ∈ ms, IsEntryName m) (root : w.root.normal = .ofNames true ms)
    (folder : w'.disk.top.shape ms = some none)
    (own : ∀ file, w.store.file? = some file → w'.isRegistry file = false)
    (member : r ∈ w'.settled.registries) (other : r ≠ .ofNames true place) :
    w.disk.top.shape ms = some none ∧ r ∈ w.settled.sources ∧ w.isRegistry r = true := by
  obtain ⟨source, is_registry⟩ := List.mem_filter.mp member
  have proper := (created.agrees.sound sound).proper
  obtain ⟨way, n, ⟨file, there⟩, shown, isSource, rfl⟩ := (Workspace.mem_settled_sources_iff
    (w := w'.toWorkspace) proper top (created.root ▸ root) folder).mp source
  have all := proper.entries_of_at? (Folder.shape_eq_file_iff.mp there)
  have stands := locate_ofNames all there
  -- Neither the new file nor that of the preferences stands there.
  have kept : ¬(ms ++ way ++ [n] = place ∨ w'.store.IsPlace w'.disk (ms ++ way ++ [n])) := by
    rintro (rfl | ⟨file, store, led⟩)
    · exact other rfl
    · rw [created.file] at store
      obtain ⟨t, text⟩ := created.saved file store
      have same : w'.disk.readText (.ofNames true (ms ++ way ++ [n])) = .ok t := by
        obtain ⟨names, moment, led', at_⟩ := readText_eq_ok_iff.mp text
        obtain rfl := Except.ok.inj (led.symm.trans led')
        exact readText_eq_ok_iff.mpr ⟨_, moment, stands, at_⟩
      have settled := own file store
      have marked : w'.isRegistry (.ofNames true (ms ++ way ++ [n])) = true := is_registry
      rw [Workspace.isRegistry_of_readText text] at settled
      rw [Workspace.isRegistry_of_readText same, settled] at marked
      exact Bool.false_ne_true marked
  have before_ := (created.agrees.files _ kept _).mp there
  have folder' : w.disk.top.shape ms = some none := by
    rw [List.append_assoc] at before_
    exact Folder.shape_of_append before_ (by simp)
  refine ⟨folder', (Workspace.mem_settled_sources_iff sound.proper top root folder').mpr
    ⟨way, n, ⟨file, before_⟩, created.config ▸ shown, created.config ▸ isSource, rfl⟩, ?_⟩
  have text : w'.disk.readText? (.ofNames true (ms ++ way ++ [n])) =
      w.disk.readText? (.ofNames true (ms ++ way ++ [n])) :=
    Option.ext fun t => created.agrees.readText? (locate_ofNames all before_) kept
  exact (Workspace.isRegistry_congr text created.config).symm.trans is_registry

/-- What is read from an absolute root is a path of names. -/
theorem exists_names_of_resolve (absolute : w.root.isAbsolute = true) (given : Path) :
    ∃ names, (∀ n ∈ names, IsEntryName n) ∧ w.resolve given = .ofNames true names :=
  ⟨_, Path.isEntryName_of_mem_namesOf, by
    rw [Workspace.resolve, Path.normal, Path.isAbsolute_join, absolute, Bool.true_or]⟩

variable {ds : List String}

/-- Where an absolute root is above a folder, it says so in names alone. -/
theorem components_of_isUnder {root : Path} (absolute : root.isAbsolute = true)
    (entries : ∀ m ∈ ds, IsEntryName m) (under : Path.isUnder (.ofNames true ds) root = true) :
    root.components = .top :: (Path.namesOf root.components).map .name := by
  rw [Path.isUnder, Path.components_ofNames entries, List.isPrefixOf_iff_prefix,
    Path.components_of_isAbsolute absolute, List.prefix_cons_inj, List.prefix_map_iff] at under
  obtain ⟨names, -, steps⟩ := under
  rw [Path.components_of_isAbsolute absolute, steps]
  exact congrArg (fun names => Component.top :: List.map Component.name names)
    (Path.foldl_follow_names []).symm

theorem Creates.normal_eq (created : w.Creates w' plan place)
    (absolute : plan.path.isAbsolute = true) :
    plan.path.normal = .ofNames true place ∧ ∀ m ∈ place, IsEntryName m := by
  have names := names_of_locate absolute created.led
  exact ⟨by rw [Path.normal, absolute, names], names ▸ Path.isEntryName_of_mem_namesOf⟩

/-- Where a walk shows two files its root is a folder. -/
theorem Creates.shape_root (created : w.Creates w' plan place) (top : ∀ m ∈ ms, IsEntryName m)
    (root : w.root.normal = .ofNames true ms) {p q : Path} (first : p ∈ w'.settled.sources)
    (second : q ∈ w'.settled.sources) (other : p ≠ q) : w'.disk.top.shape ms = some none := by
  have there := Workspace.isFolder_of_mem_sources first second other
  obtain ⟨names, led, at_⟩ := isFolder_iff.mp there
  have settled : w'.settled.root = .ofNames true ms := by
    rw [← root, ← created.root]
    rfl
  rw [settled] at led
  have steps := names_of_locate (Path.isAbsolute_ofNames top true) led
  rw [Path.components_ofNames top, Path.namesOf, List.foldl_cons, Path.foldl_follow_names] at steps
  obtain rfl : names = ms := steps
  exact at_

/-- The folder that a registry has been made in is that of the file, or stands above it. -/
theorem Creates.prefix_front {front : List String} {n : String} {file : File}
    (created : w.Creates w' plan (front ++ [n])) (settled : plan.folder = .ofNames true ds)
    (entries : ∀ m ∈ ds, IsEntryName m) (all : ∀ m ∈ front ++ [n], IsEntryName m)
    (there : w'.disk.top.shape (front ++ [n]) = some (some file)) (inside : ds <+: front ++ [n]) :
    ds <+: front := by
  refine (List.prefix_concat_iff.mp inside).resolve_left ?_
  rintro rfl
  rcases created.folder with none_ | made
  · rw [settled, Path.components_ofNames entries, List.isEmpty_cons] at none_
    cases none_
  · obtain ⟨names, led, at_⟩ := isFolder_iff.mp made
    rw [settled, locate_ofNames all there] at led
    obtain rfl := Except.ok.inj led
    rw [there] at at_
    cases at_

/-- A registry that has been made in a folder is in no nested pair, if none was reported around the
folder before. -/
theorem Creates.not_nested (created : w.Creates w' plan place) (sound : w.disk.top.Sound)
    (absolute : w.root.isAbsolute = true) (resolved : ∃ given, plan.folder = w.resolve given)
    (named : ∃ name, plan.path = plan.folder.child name)
    (own : ∀ file, w.store.file? = some file → w'.isRegistry file = false)
    (calm : (w.around plan.folder).isNested = false)
    (below : plan.folder.isUnder w.root.normal = true)
    (inside : plan.path.normal.isUnder plan.folder = true)
    (new : plan.path.normal ∈ w'.settled.registries) (member : r ∈ w'.settled.registries)
    (other : r ≠ plan.path.normal) {a b : Path} (parent : r.parent? = some a)
    (parent' : plan.path.normal.parent? = some b) : ¬(a.isUnder b = true ∨ b.isUnder a = true) := by
  intro line
  have proper := (created.agrees.sound sound).proper
  -- The names of the root, of the folder, and of the new file
  let ms := Path.namesOf w.root.components
  have top : ∀ m ∈ ms, IsEntryName m := Path.isEntryName_of_mem_namesOf
  have root : w.root.normal = .ofNames true ms := by rw [Path.normal, absolute]
  obtain ⟨given, resolved⟩ := resolved
  obtain ⟨ds, entries, settled⟩ := exists_names_of_resolve absolute given
  rw [← resolved] at settled
  have from_top : plan.path.isAbsolute = true := by
    obtain ⟨name, path⟩ := named
    rw [path, Path.child, settled, Path.isAbsolute_join, Path.isAbsolute_ofNames entries, Bool.true_or]
  obtain ⟨path, names⟩ := created.normal_eq from_top
  have folder' : w'.disk.top.shape ms = some none := created.shape_root top root
    (List.mem_of_mem_filter member) (List.mem_of_mem_filter new) other
  rw [path] at other new inside parent'
  obtain ⟨folder, source, is_registry⟩ :=
    created.mem_registries sound top root folder' own member other
  -- The folder stands above the new file, or is the one that it is in.
  obtain ⟨mid, n, ⟨file, there⟩, -, -, same⟩ := (Workspace.mem_settled_sources_iff
    (w := w'.toWorkspace) proper top (created.root ▸ root) folder').mp (List.mem_of_mem_filter new)
  have all := proper.entries_of_at? (Folder.shape_eq_file_iff.mp there)
  obtain rfl := Path.ofNames_inj names all same
  rw [settled, Specifier.isUnder_ofNames names entries] at inside
  have in_folder : ds <+: ms ++ mid := created.prefix_front settled entries all there inside
  rw [Path.parent?_ofNames all] at parent'
  obtain rfl := Option.some.inj parent'
  -- The other registry stands in a folder, too, on one line with that of the new file.
  obtain ⟨way, m, ⟨file', there'⟩, -, -, rfl⟩ :=
    (Workspace.mem_settled_sources_iff sound.proper top root folder).mp source
  have all' := sound.proper.entries_of_at? (Folder.shape_eq_file_iff.mp there')
  have parent_ := parent
  rw [Path.parent?_ofNames all'] at parent
  obtain rfl := Option.some.inj parent
  have front : ∀ k ∈ ms ++ mid, IsEntryName k := fun k member => all k (List.mem_append_left _ member)
  have front' : ∀ k ∈ ms ++ way, IsEntryName k := fun k member =>
    all' k (List.mem_append_left _ member)
  rw [Specifier.isUnder_ofNames front' front, Specifier.isUnder_ofNames front front'] at line
  have line' : ds <+: ms ++ way ∨ ms ++ way <+: ds := by
    rcases line with deeper | higher
    · exact .inl (in_folder.trans deeper)
    · exact List.prefix_or_prefix_of_prefix in_folder higher
  refine Bool.false_ne_true (calm.symm.trans ?_)
  rw [settled, root, Specifier.isUnder_ofNames entries top] at below
  rw [around, settled]
  refine Workspace.isNested_nesting sound.proper entries root folder below source is_registry parent_ ?_ ?_
  · rwa [Specifier.isUnder_ofNames front' entries, Specifier.isUnder_ofNames entries front']
  · intro b boundary
    split at boundary
    · next under =>
      obtain rfl := Option.some.inj boundary
      exact components_of_isUnder absolute entries under
    · cases boundary

end Workplace

/-- The plan that is to be carried out. -/
def Decision.plan? {Plan : Type} : Decision Plan → Option Plan
  | .carryOut plan => some plan
  | _ => none

namespace Session

open Workflow in
/-- Creating a registry where nesting is prevented. If the user has not insisted on the folder, the
registry is written into it, and what is remembered makes no registry of the preferences' file, then a
validation finds the new registry nested with none. -/
theorem follow_newRegistry {s s' : Session} {options : NewRegistry}
    (sound : s.place.disk.top.Sound) (absolute : s.place.root.isAbsolute = true)
    (prevents : s.place.config.preventNesting = true)
    (followed : s.follow (newRegistry options) = (.ok .completed, s'))
    (own : ∀ file, s.place.store.file? = some file → s'.place.isRegistry file = false) :
    ∃ plan used, (s.inquire (newRegistry options).inquire).1 = .ok (.carryOut plan) ∧
      s.talk.Heard used s'.talk ∧ s.place.disk.holds plan.path = false ∧
      s'.place.disk.isFile plan.path = true ∧
      (.insists ∉ used → plan.folder.isUnder s.place.root.normal = true →
        plan.path.normal.isUnder plan.folder = true → ∀ p report, s'.place.validate p = .ok report →
          ∀ f ∈ report.findings, ∀ other, f.issue = .nested other →
            f.file ≠ plan.path.normal ∧ other ≠ plan.path.normal) := by
  obtain ⟨w, talk⟩ := s
  rw [follow] at followed
  generalize asked : Session.inquire ⟨w, talk⟩ (newRegistry options).inquire = result at followed ⊢
  obtain ⟨why | decision, m⟩ := result
  · cases followed
  have goes_on : decision ≠ .cancel := by
    rintro rfl
    cases followed
  obtain ⟨plan, rfl, resolved, named, free, used, heard, calm⟩ :=
    Inquiry.of_inquire_newRegistry asked goes_on
  have same := Inquiry.place_of_inquire asked
  dsimp only at followed
  generalize carried : m.act ((newRegistry options).carryOut plan) = result at followed
  obtain ⟨why | _, m'⟩ := result
  · cases followed
  obtain rfl : m' = s' := congrArg Prod.snd followed
  obtain ⟨d₁, d₂, made, written, saved, quiet⟩ := of_act_newRegistry carried
  have place : m.place = w := congrArg Session.place same
  rw [place] at made written saved
  obtain ⟨place, created⟩ := Workplace.exists_creates made written saved
  refine ⟨plan, used, rfl, heard.keep quiet, free, created.isFile,
    fun unforced below inside p report valid f member other issue => ?_⟩
  have nodup := Workspace.nodup_registries (w := m'.place.settled) (created.agrees.sound sound).proper
  obtain ⟨first, second, different, a, b, parent, parent', line⟩ := Workspace.of_mem_nestedPairs nodup
    (Workspace.mem_nestedPairs_of_validate valid member issue) issue
  have apart : ∀ {r : Path}, plan.path.normal ∈ m'.place.settled.registries →
      r ∈ m'.place.settled.registries → r ≠ plan.path.normal → ∀ {a b : Path}, r.parent? = some a →
        plan.path.normal.parent? = some b → ¬(a.isUnder b = true ∨ b.isUnder a = true) :=
    created.not_nested sound absolute resolved named own (calm prevents unforced) below inside
  constructor
  · intro new
    rw [new] at first different parent
    exact apart first second different.symm parent' parent line.symm
  · intro new
    rw [new] at second different parent'
    exact apart second first different parent parent' line

/-- In the folder that is given a registry would nest, so the user chooses the one beside it. -/
theorem follow_newRegistry_beside :
    let inner := Folder.empty.put "reg.ts" (.file ⟨.text "private static instance: Site;".toList, 0⟩)
    let outer := Folder.empty.put "a" (.folder inner)
    let s : Session := ⟨⟨⟨{ top := Folder.empty.put "w" (.folder outer) }, ⟨"/w"⟩, {}⟩,
      { file? := some ⟨"/home/prefs.json"⟩ }, 0⟩,
      { respondent := .script [.one (some 1), .folder (some ⟨"b"⟩)] }⟩
    let s' := (s.follow (Workflow.newRegistry ⟨some ⟨"a"⟩, some "Home", none⟩)).2
    s'.place.disk.isFile ⟨"/w/b/home.ts"⟩ = true ∧ ∀ p report, s'.place.validate p = .ok report →
      ∀ f ∈ report.findings, ∀ other, f.issue = .nested other →
        f.file ≠ ⟨"/w/b/home.ts"⟩ ∧ other ≠ ⟨"/w/b/home.ts"⟩ := by
  intro inner outer s s'
  have sound : s.place.disk.top.Sound := by
    have entry : ∀ n ∈ ["w", "a", "reg.ts"], IsEntryName n := by decide +kernel
    have lowest : inner.Sound := Folder.sound_empty.put (entry "reg.ts" (by simp)) (by simp)
    have middle : outer.Sound := Folder.sound_empty.put (entry "a" (by simp))
      fun _ same => Item.folder.inj same ▸ lowest
    exact Folder.sound_empty.put (entry "w" (by simp)) fun _ same => Item.folder.inj same ▸ middle
  have ended : (s.follow (Workflow.newRegistry ⟨some ⟨"a"⟩, some "Home", none⟩)).1.toOption =
      some .completed := by
    decide +kernel
  have own : s'.place.isRegistry ⟨"/home/prefs.json"⟩ = false := by decide +kernel
  have told : s'.talk.respondent = .script [] := by decide +kernel
  have planned : ((s.inquire
      (Workflow.newRegistry ⟨some ⟨"a"⟩, some "Home", none⟩).inquire).1.toOption.bind
        Decision.plan?).map (fun plan => (plan.folder, plan.path)) =
          some (⟨"/w/b"⟩, ⟨"/w/b/home.ts"⟩) := by
    decide +kernel
  have followed : s.follow (Workflow.newRegistry ⟨some ⟨"a"⟩, some "Home", none⟩) =
      (.ok .completed, s') := Prod.ext (toOption_eq_some_iff.mp ended) rfl
  obtain ⟨plan, used, asked, heard, -, isFile, apart⟩ := follow_newRegistry sound
    (by decide +kernel) rfl followed (by rintro _ ⟨⟩; exact own)
  rw [asked] at planned
  obtain ⟨folder, path⟩ : plan.folder = ⟨"/w/b"⟩ ∧ plan.path = ⟨"/w/b/home.ts"⟩ := by
    simpa [Except.toOption, Decision.plan?] using planned
  have spoken : s.talk.Heard [.one (some 1), .folder (some ⟨"b"⟩)] s'.talk :=
    .inr ⟨[], rfl, told⟩
  obtain rfl := heard.unique spoken
  have normal : Path.normal ⟨"/w/b/home.ts"⟩ = ⟨"/w/b/home.ts"⟩ := by decide +kernel
  rw [path, normal, folder] at apart
  rw [path] at isFile
  exact ⟨isFile, apart (by decide) (by decide +kernel) (by decide +kernel)⟩

end Session
end Registrar
