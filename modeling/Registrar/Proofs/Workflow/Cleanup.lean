import Registrar.Proofs.Disk.Again
import Registrar.Proofs.Registry.Entries
import Registrar.Proofs.Session.Choice
import Registrar.Proofs.Specifier.Return
import Registrar.Proofs.Workflow.Deleting

/-!
Cleaning up. Of a registry that is laid out as it is generated, a cleanup takes exactly the entries
whose imports lead to no file: the orphans are found by way of the accessors, and the classes that are
handed on to the removal are those of the dead entries, each of them once. Afterwards nothing is left
to clean up, since no file has gone.
-/

namespace Registrar

open Disk

namespace Workspace

/-- The import of an entry leads to an existing file. -/
def lives (w : Workspace) (registry : Path) (l : Listing) : Bool :=
  ((Specifier.base? w.config w.root registry l.specifier).bind w.target?).isSome

variable {w : Workspace} {registry : Path} {l : Listing}

theorem lives_iff : w.lives registry l = true ↔ ∃ base,
    Specifier.base? w.config w.root registry l.specifier = some base ∧
      ∃ file ∈ Specifier.targets w.config base, w.disk.isFile file = true := by
  rw [lives]
  cases Specifier.base? w.config w.root registry l.specifier with
  | none => simp
  | some base => simp [target?, List.find?_isSome]

end Workspace

/-- The classes of the orphans are those of the dead entries, in the order of the list. -/
theorem Listed.orphansIn_eq {f : Frame} {ls : List Listing} (plain : f.Plain) (listed : Listed f ls)
    (void : f.config.contextType ≠ "void") {w : Workspace} {registry : Path}
    (local_ : ∀ l ∈ ls, (Specifier.base? w.config w.root registry l.specifier).isSome) :
    (w.orphansIn registry (Zones.ofText ((Layout.ofListings ls).text f))).map (·.className) =
      (ls.filter fun l => !w.lives registry l).map (·.className) := by
  generalize reading : Zones.ofText ((Layout.ofListings ls).text f) = z
  -- Which class an accessor hands out is all that counts of it.
  let gone? (c : String) : Option String := (z.importOf? c).bind fun i =>
    (Specifier.base? w.config w.root registry i.specifier).bind fun base =>
      if (w.target? base).isNone then some c else none
  have classes : z.helpers.map (·.2) = ls.map (·.className) := by
    have helpers := congrArg (List.map Prod.snd) (listed.helpers_eq plain void)
    rwa [List.map_map, List.map_map, reading] at helpers
  have dead : ∀ l ∈ ls, gone? l.className = if !w.lives registry l then some l.className else none := by
    intro l known
    obtain ⟨i, found, same⟩ := listed.exists_importOf? plain known
    obtain ⟨base, based⟩ := Option.isSome_iff_exists.mp (local_ l known)
    rw [reading] at found
    simp only [gone?, found, Option.bind_some, same, based, Workspace.lives]
    cases w.target? base <;> rfl
  calc (w.orphansIn registry z).map (·.className)
      = z.helpers.filterMap fun e => gone? e.2 := by
        rw [Workspace.orphansIn, List.map_filterMap]
        refine List.filterMap_congr fun e _ => ?_
        obtain ⟨a, c⟩ := e
        simp only [gone?]
        cases z.importOf? c with
        | none => rfl
        | some i =>
          simp only [Option.bind_some]
          cases Specifier.base? w.config w.root registry i.specifier with
          | none => rfl
          | some base =>
            simp only [Option.bind_some]
            cases w.target? base <;> rfl
    _ = (ls.map (·.className)).filterMap gone? := by rw [← classes, List.filterMap_map]; rfl
    _ = ls.filterMap fun l => if !w.lives registry l then some l.className else none := by
        rw [List.filterMap_map]
        exact List.filterMap_congr dead
    _ = (ls.filter fun l => !w.lives registry l).map (·.className) := by
        rw [← List.filterMap_eq_map, List.filterMap_filter]
        rfl

namespace Inquiry

variable {w : Workplace} {given : Path} {talk : Talk}

/-- A registry that is given is checked, and its use staged alone. -/
theorem inquire_registry_given (ok : w.checkRegistry (w.resolve given) = .ok ()) :
    Session.inquire ⟨w, talk⟩ (registry (some given)) =
      (.ok (some (w.resolve given)),
        ⟨w, { talk with staged := [.remember (w.resolve given) none] }⟩) := by
  have cleared : Session.inquire ⟨w, talk⟩ (modify fun t => { t with staged := [] }) =
      (.ok (), ⟨w, { talk with staged := [] }⟩) := rfl
  have read_ : Session.inquire ⟨w, { talk with staged := [] }⟩ read =
      (.ok w, ⟨w, { talk with staged := [] }⟩) := rfl
  rw [registry, inquire_bind, cleared]
  dsimp only
  rw [inquire_bind, read_]
  dsimp only
  rw [ok]
  rfl

/-- What is said while looking around changes nothing that is staged. -/
theorem inquire_forM_say {α : Type} (l : List α) (words : α → String) (s : Session) :
    ∃ events, s.inquire (l.forM fun a => (liftM (Talk.say .info (words a)) : Inquiry Unit)) =
      (.ok (), ⟨s.place, { s.talk with events }⟩) := by
  induction l generalizing s with
  | nil => exact ⟨s.talk.events, rfl⟩
  | cons a rest ih =>
    obtain ⟨events, said⟩ :=
      ih ⟨s.place, { s.talk with events := s.talk.events ++ [.said .info (words a)] }⟩
    have step : s.inquire ((a :: rest).forM fun a => (liftM (Talk.say .info (words a)) : Inquiry Unit)) =
        s.inquire ((liftM (Talk.say .info (words a)) : Inquiry Unit) >>= fun _ =>
          rest.forM fun a => (liftM (Talk.say .info (words a)) : Inquiry Unit)) := rfl
    refine ⟨events, ?_⟩
    rw [step, inquire_bind]
    exact said

end Inquiry

/-- A cleanup with a given registry, which is not asked about, comes to a plan for its orphans. -/
theorem Session.inquire_cleanUp {s : Session} {given : Path} {t : Text}
    (ok : s.place.checkRegistry (s.place.resolve given) = .ok ())
    (read : s.place.disk.readText (s.place.resolve given) = .ok t) : ∃ talk,
      s.inquire (Workflow.cleanUp ⟨some given, true⟩).inquire =
        (.ok (.carryOut ⟨s.place.resolve given, (s.place.orphansIn (s.place.resolve given)
          (Zones.ofText t)).map (·.className)⟩), ⟨s.place, talk⟩) ∧
      talk.staged = [.remember (s.place.resolve given) none] := by
  obtain ⟨w, talk⟩ := s
  let path := w.resolve given
  let talk' : Talk := { talk with staged := [.remember path none] }
  have read_ : ∀ talk, Session.inquire ⟨w, talk⟩ MonadReader.read = (.ok w, ⟨w, talk⟩) := fun _ => rfl
  have text : Session.inquire ⟨w, talk'⟩ (Inquiry.readText path) = (.ok t, ⟨w, talk'⟩) := by
    rw [Inquiry.readText, Inquiry.inquire_bind, read_]
    dsimp only
    rw [read]
    rfl
  rw [Workflow.cleanUp]
  dsimp only
  rw [Inquiry.withRegistry, Inquiry.inquire_bind, Inquiry.inquire_registry_given ok]
  dsimp only
  rw [Inquiry.inquire_bind, read_]
  dsimp only
  rw [Inquiry.inquire_bind, text]
  dsimp only
  split
  · next none_ =>
    rw [none_]
    exact ⟨talk', rfl, rfl⟩
  · obtain ⟨events, said⟩ := Inquiry.inquire_forM_say (w.orphansIn path (Zones.ofText t))
      (fun o => o.className ++ " (" ++ o.accessor ++ ") imports missing '" ++ o.specifier ++ "'")
      ⟨w, talk'⟩
    rw [Inquiry.inquire_bind, said]
    exact ⟨_, rfl, rfl⟩

namespace Action

/-- A single staged change is made. -/
theorem act_commitChoice_single {s : Session} {change : Staged} (only : s.talk.staged = [change]) :
    s.act commitChoice = ((s.place.commit change).1,
      ⟨(s.place.commit change).2, { s.talk with staged := [] }⟩) := by
  have step : s.act commitChoice = ({ s with talk := { s.talk with staged := [] } } : Session).act
      (s.talk.staged.forM fun change => Action.change (·.commit change)) := rfl
  rw [step, only, act_forM_cons, act_bind, act_change]
  cases (s.place.commit change).1 <;> rfl

end Action

/-! ### Specifiers -/

/-- A relative specifier is read from the folder of the file that has it. -/
theorem Specifier.isSome_base?_relative {config : Config} {root importer folder : Path}
    (parent : importer.parent? = some folder) (extension : String) (file : Path) :
    (base? config root importer (relative extension importer file)).isSome := by
  have dotted : (relative extension importer file).toList.head? = some '.' := by
    rw [relative, String.toList_ofList]
    split
    · next head => exact eq_of_beq head
    · rfl
  simp [base?, dotted, parent]

namespace Site

variable {s : Site} {ls : List Listing}

theorem exists_of_mem_admitted {candidates : List Candidate} {l : Listing}
    (member : l ∈ s.admitted ls candidates) : ∃ c ∈ candidates, s.offered? c = some l := by
  induction candidates generalizing ls with
  | nil => simp [admitted] at member
  | cons c rest ih =>
    have later : ∀ {ls}, l ∈ s.admitted ls rest → ∃ c' ∈ c :: rest, s.offered? c' = some l := by
      intro ls member
      obtain ⟨c', inside, offered⟩ := ih member
      exact ⟨c', List.mem_cons_of_mem _ inside, offered⟩
    rw [admitted] at member
    cases offered : s.offered? c with
    | none =>
      rw [offered] at member
      exact later member
    | some l' =>
      simp only [offered] at member
      split at member
      · exact later member
      · rcases List.mem_cons.mp member with rfl | member
        · exact ⟨c, List.mem_cons_self, offered⟩
        · exact later member

/-- The specifiers of a roster are those of files. -/
theorem exists_file_of_mem_rosterAfter {changes : List Change} {l : Listing}
    (member : l ∈ s.rosterAfter changes) :
    ∃ file, l.specifier = Specifier.of s.frame.config s.root s.path file := by
  have run : ∀ (changes : List Change) (ls : List Listing),
      (∀ l ∈ ls, ∃ file, l.specifier = Specifier.of s.frame.config s.root s.path file) →
        ∀ l ∈ changes.foldl s.update ls,
          ∃ file, l.specifier = Specifier.of s.frame.config s.root s.path file := by
    intro changes
    induction changes with
    | nil => exact fun ls known => known
    | cons c rest ih =>
      intro ls known
      refine ih _ fun l member => ?_
      cases c with
      | add candidates =>
        rcases List.mem_append.mp member with member | member
        · exact known l member
        · obtain ⟨c, _, offered⟩ := exists_of_mem_admitted member
          obtain ⟨_, _, _, specifier⟩ := exists_of_offered? offered
          exact ⟨c.file, specifier⟩
      | remove classes => exact known l (List.mem_of_mem_filter member)
  exact run changes [] (by simp) l member

end Site

/-! ### Cleaning up -/

namespace Workplace

/-- Preferences can be saved, and their file is then not the given one. -/
structure SavesApart (w : Workplace) (file : Path) : Prop where
  saved : (w.store.save w.disk).1 = .ok ()
  apart : ∀ own, w.store.file? = some own → ¬(w.store.save w.disk).2.Meet own file

variable {w : Workplace} {file : Path} {d : Disk}

/-- A registry is remembered as used, on a disk that is alike, and can be so again. -/
theorem SavesApart.exists_upsert (saves : w.SavesApart file) (alike : Alike w.disk d) (path : Path)
    (label? : Option String) : ∃ w', ({ w with disk := d } : Workplace).upsert path label? = (.ok (), w') ∧
      w'.SavesApart file ∧ (∀ own, w'.store.file? = some own → ¬w'.disk.Meet own file) ∧
      ∀ p, w.disk.isFile p = true → w'.disk.isFile p = true := by
  generalize saved : w.store.save w.disk = result at saves
  obtain ⟨ended, d₁⟩ := result
  obtain ⟨rfl, apart⟩ : ended = .ok () ∧ ∀ own, w.store.file? = some own → ¬d₁.Meet own file := by
    refine ⟨?_, fun own kept => ?_⟩
    · simpa [saved] using saves.saved
    · simpa [saved] using saves.apart own kept
  have elsewhere : ∀ {d : Disk}, Alike d₁ d → ∀ own, w.store.file? = some own → ¬d.Meet own file := by
    rintro d alike own kept ⟨ns, led, led'⟩
    rw [alike.locate_eq] at led led'
    exact apart own kept ⟨ns, led, led'⟩
  obtain ⟨d₂, saved₂, alike₂⟩ := Store.exists_save_of_alike alike saved
    (w.store.preferences.upsert w.clock path label?)
  obtain ⟨d₃, saved₃, alike₃⟩ := Store.exists_save_again saved₂
    (w.store.preferences.upsert w.clock path label?)
  refine ⟨{ w with
    disk := d₂
    store := { w.store with preferences := w.store.preferences.upsert w.clock path label? } }, ?_,
    ⟨?_, fun own kept => ?_⟩, elsewhere alike₂, fun p there => ?_⟩
  · simp only [upsert, remember, saved₂]
  · exact congrArg Prod.fst saved₃
  · have disk : d₃ = _ := (congrArg Prod.snd saved₃).symm
    exact disk ▸ elsewhere (alike₂.trans alike₃) own kept
  · exact Store.isFile_of_save saved₂ (alike.isFile_eq.trans there)

/-- A registry has the text; but for it and the preferences, all files are as they were, and none
is gone. -/
structure CleanedUp (w w' : Workplace) (registry : Path) (t : Text) : Prop where
  root : w'.root = w.root
  config : w'.config = w.config
  file : w'.store.file? = w.store.file?
  read : w'.disk.readText registry = .ok t
  agrees : Agrees (fun ns => w.disk.locate registry = .ok ns ∨ w'.store.IsPlace w'.disk ns)
    w.disk w'.disk
  stays : ∀ p, w.disk.isFile p = true → w'.disk.isFile p = true

end Workplace

/-- What is edited of a registry before preferences are saved. -/
structure Edited (d d' : Disk) (registry : Path) (t : Text) : Prop where
  alike : Alike d d'
  agrees : Agrees (fun ns => d.locate registry = .ok ns) d d'
  read : d'.readText registry = .ok t

namespace Workspace

/-- A registry is edited as its text is. -/
theorem exists_edited {w : Workspace} {registry : Path} {t : Text}
    (read : w.disk.readText registry = .ok t) (classes : List String) :
    ∃ report d', w.remove registry classes = .ok (report, d') ∧
      Edited w.disk d' registry ((Removal.remove w.config t classes).2.getD t) := by
  have step : w.remove registry classes = (w.writeChange registry
      (Removal.remove w.config t classes).2).map fun d =>
        ((Removal.remove w.config t classes).1, d) := by
    rw [Workspace.remove, Workspace.read, read]
    simp only [Except.mapError, bind, Except.bind]
    cases w.writeChange registry (Removal.remove w.config t classes).2 <;> rfl
  rw [step]
  cases (Removal.remove w.config t classes).2 with
  | none => exact ⟨_, w.disk, rfl, .refl _, .refl _ _, read⟩
  | some new =>
    obtain ⟨ns, moment, led, there⟩ := readText_eq_ok_iff.mp read
    obtain ⟨d', written⟩ := exists_write_of_isFile (isFile_iff.mpr ⟨ns, _, led, there⟩) new
    have alters := alters_of_write written led
    refine ⟨_, d', by simp [writeChange, Workspace.write, written, Except.mapError, Except.map]; rfl,
      alters.alike there, alters.agrees.mono ?_, readText_eq_ok_iff.mpr
        ⟨ns, w.disk.now, alters.grows.locate led, by simp [alters.shape]⟩⟩
    rintro _ rfl
    exact led

end Workspace

/-- Taking out the dead entries leaves the others, in their order. -/
theorem Listed.remove_dead {f : Frame} {ls : List Listing} (plain : f.Plain) (listed : Listed f ls)
    (dead : Listing → Bool) :
    (Removal.remove f.config ((Layout.ofListings ls).text f)
        ((ls.filter dead).map (·.className))).2.getD ((Layout.ofListings ls).text f) =
      (Layout.ofListings (ls.filter fun l => !dead l)).text f := by
  have distinct : ((ls.filter dead).map (·.className)).Nodup :=
    listed.distinct.sublist (List.filter_sublist.map _)
  rw [listed.remove plain distinct]
  · congr 2
    refine List.filter_congr fun l known => ?_
    have among : l.className ∈ (ls.filter dead).map (·.className) ↔ dead l = true := by
      constructor
      · intro member
        obtain ⟨l', inside, same⟩ := List.mem_map.mp member
        obtain ⟨known', gone⟩ := List.mem_filter.mp inside
        rwa [← List.inj_on_of_nodup_map listed.distinct known' known same]
      · exact fun gone => List.mem_map_of_mem (List.mem_filter.mpr ⟨known, gone⟩)
    simp [among]
  · intro c member
    obtain ⟨l, inside, rfl⟩ := List.mem_map.mp member
    exact listed.spares (List.mem_of_mem_filter inside)

namespace Session

/-- A cleanup takes out what is dead, if anything, and then saves the choice of the registry. -/
theorem follow_cleanUp_eq {s : Session} {given : Path} {t : Text}
    (ok : s.place.checkRegistry (s.place.resolve given) = .ok ())
    (read : s.place.disk.readText (s.place.resolve given) = .ok t) {d' : Disk}
    {classes : List String} (orphans : (s.place.orphansIn (s.place.resolve given)
      (Zones.ofText t)).map (·.className) = classes)
    (edited : if classes = [] then d' = s.place.disk
      else ∃ report, s.place.remove (s.place.resolve given) classes = .ok (report, d'))
    {w' : Workplace}
    (saved : ({ s.place with disk := d' } : Workplace).upsert (s.place.resolve given) none =
      (.ok (), w')) :
    (s.follow (Workflow.cleanUp ⟨some given, true⟩)).1 = .ok .completed ∧
      (s.follow (Workflow.cleanUp ⟨some given, true⟩)).2.place = w' := by
  obtain ⟨talk, inquired, staged⟩ := inquire_cleanUp ok read
  let path := s.place.resolve given
  have closes : ∀ (d : Disk) (words : String), d = d' → ∃ s',
      Session.act ⟨{ s.place with disk := d }, talk⟩
        (Action.commitChoice >>= fun _ => (liftM (Talk.say .success words) : Action Unit)) =
          (.ok (), s') ∧ s'.place = w' := by
    rintro d words rfl
    rw [Action.act_bind, Action.act_commitChoice_single staged, Workplace.commit]
    dsimp only
    rw [saved]
    exact ⟨_, rfl, rfl⟩
  have carried : ∃ s', Session.act ⟨s.place, talk⟩ ((Workflow.cleanUp ⟨some given, true⟩).carryOut
      ⟨path, classes⟩) = (.ok (), s') ∧ s'.place = w' := by
    rw [Workflow.cleanUp]
    dsimp only
    cases classes with
    | nil => exact closes s.place.disk _ edited.symm
    | cons c rest =>
      obtain ⟨report, removed⟩ := edited
      have changed := Action.act_changeDisk_ok (s := ⟨s.place, talk⟩)
        (f := fun w => w.remove path (c :: rest)) removed
      rw [List.isEmpty_cons, if_neg Bool.false_ne_true, Action.act_bind, changed]
      exact closes d' _ rfl
  obtain ⟨s', acted, place⟩ := carried
  rw [orphans] at inquired
  rw [follow, inquired]
  dsimp only
  rw [acted]
  exact ⟨rfl, place⟩

/-- A cleanup of a registry that is laid out for a list leaves the entries that live. -/
theorem follow_cleanUp_listed {s : Session} {given path : Path} {f : Frame} {ls : List Listing}
    (plain : f.Plain) (listed : Listed f ls) (void : f.config.contextType ≠ "void")
    (settings : s.place.config = f.config) (placed : s.place.resolve given = path)
    (read : s.place.disk.readText path = .ok ((Layout.ofListings ls).text f))
    (local_ : ∀ l ∈ ls,
      (Specifier.base? s.place.config s.place.root path l.specifier).isSome)
    (saves : s.place.SavesApart path) :
    ∃ w', (s.follow (Workflow.cleanUp ⟨some given, true⟩)).1 = .ok .completed ∧
      (s.follow (Workflow.cleanUp ⟨some given, true⟩)).2.place = w' ∧
      s.place.CleanedUp w' path
        ((Layout.ofListings (ls.filter (s.place.lives path))).text f) ∧
      w'.SavesApart path ∧ ((∀ l ∈ ls, s.place.lives path l = true) → s.place.Saves w') := by
  subst placed
  let path := s.place.resolve given
  let dead (l : Listing) : Bool := !s.place.lives path l
  have ok : s.place.checkRegistry path = .ok () := by
    obtain ⟨ns, moment, led, there⟩ := readText_eq_ok_iff.mp read
    have file : s.place.disk.isFile path = true := isFile_iff.mpr ⟨ns, _, led, there⟩
    have registry : s.place.isRegistry path = true := by
      have text : s.place.disk.readText? path = some _ := readText?_eq_some_iff.mpr read
      rw [Workspace.isRegistry, Workspace.kind, text]
      simp [Workspace.kindOf, Listed.isRegistry f ls]
    simp [Workspace.checkRegistry, file, registry]
  have orphans := listed.orphansIn_eq plain void local_
  -- Nothing is edited where nothing is dead.
  obtain ⟨d, changed, edited, idle⟩ : ∃ d,
      (if (ls.filter dead).map (·.className) = [] then d = s.place.disk
        else ∃ report, s.place.remove path ((ls.filter dead).map (·.className)) = .ok (report, d)) ∧
      Edited s.place.disk d path
        ((Layout.ofListings (ls.filter (s.place.lives path))).text f) ∧
      ((∀ l ∈ ls, s.place.lives path l = true) → d = s.place.disk) := by
    by_cases none_ : (ls.filter dead).map (·.className) = []
    · have all : ls.filter (s.place.lives path) = ls := by
        refine List.filter_eq_self.mpr fun l known => ?_
        simpa [dead] using List.filter_eq_nil_iff.mp (List.map_eq_nil_iff.mp none_) l known
      refine ⟨s.place.disk, by rw [if_pos none_], ⟨.refl _, .refl _ _, ?_⟩, fun _ => rfl⟩
      rw [all]
      exact read
    · obtain ⟨report, d, removed, edited⟩ :=
        Workspace.exists_edited read ((ls.filter dead).map (·.className))
      have left : (fun l => !dead l) = s.place.lives path := funext fun l => Bool.not_not _
      rw [settings, listed.remove_dead plain dead, left] at edited
      refine ⟨d, by rw [if_neg none_]; exact ⟨report, removed⟩, edited, fun all => ?_⟩
      refine absurd ?_ none_
      rw [List.map_eq_nil_iff, List.filter_eq_nil_iff]
      intro l known
      simp [dead, all l known]
  obtain ⟨w', saved, again, apart, stays⟩ := saves.exists_upsert edited.alike path none
  obtain ⟨ended, place⟩ := follow_cleanUp_eq ok read orphans changed saved
  obtain ⟨kept, -⟩ := ({ s.place with disk := d } : Workplace).saves_remember
    (·.upsert s.place.clock path none)
  have same : (({ s.place with disk := d } : Workplace).remember
      (·.upsert s.place.clock path none)).2 = w' := congrArg Prod.snd saved
  rw [same] at kept
  refine ⟨w', ended, place, ?_, again, ?_⟩
  · obtain ⟨ns, moment, led, there⟩ := readText_eq_ok_iff.mp edited.read
    have outside : ¬w'.store.IsPlace w'.disk ns := by
      rintro ⟨own, own_file, led'⟩
      exact apart own own_file ⟨ns, led', kept.agrees.locate led⟩
    exact {
      root := kept.root
      config := kept.config
      file := kept.file
      read := readText_eq_ok_iff.mpr
        ⟨ns, moment, kept.agrees.locate led, (kept.agrees.files ns outside _).mpr there⟩
      agrees := (edited.agrees.mono fun _ => .inl).trans (kept.agrees.mono fun _ => .inr)
      stays }
  · intro all
    obtain rfl := idle all
    exact kept

/-- For a registry that was generated and changed by changes that leave the template alone, a cleanup
leaves exactly the entries whose imports lead to files; a second one finds no orphan and touches
nothing but the preferences. -/
theorem follow_cleanUp {s : Session} {given : Path} {site : Site} {changes : List Change}
    (plain : site.Plain) (spares : ∀ c ∈ changes, site.Spares c)
    (void : site.frame.config.contextType ≠ "void")
    (settings : s.place.config = site.frame.config) (placed : s.place.resolve given = site.path)
    (read : s.place.disk.readText site.path = .ok (site.textAfter changes))
    (saves : s.place.SavesApart site.path) :
    ∃ w', (s.follow (Workflow.cleanUp ⟨some given, true⟩)).1 = .ok .completed ∧
      (s.follow (Workflow.cleanUp ⟨some given, true⟩)).2.place = w' ∧
      s.place.CleanedUp w' site.path ((Layout.ofListings
        ((site.rosterAfter changes).filter (s.place.lives site.path))).text site.frame) ∧
      w'.orphans site.path = .ok [] ∧
      ∀ talk, (Session.follow ⟨w', talk⟩ (Workflow.cleanUp ⟨some given, true⟩)).1 = .ok .completed ∧
        w'.Saves (Session.follow ⟨w', talk⟩ (Workflow.cleanUp ⟨some given, true⟩)).2.place := by
  obtain ⟨text, listed⟩ := Site.textAfter_of_spares plain spares
  rw [text] at read
  have normal : site.path.IsNormal := by
    have absolute : (s.place.resolve given).isAbsolute = true := placed ▸ plain.absolute
    exact placed ▸ Path.isNormal_normal absolute
  have file : s.place.disk.isFile site.path = true := by
    obtain ⟨ns, moment, led, there⟩ := readText_eq_ok_iff.mp read
    exact isFile_iff.mpr ⟨ns, _, led, there⟩
  obtain ⟨folder, parent, -⟩ := exists_parent?_of_isFile ⟨plain.absolute, normal⟩ file
  have local_ : ∀ l ∈ site.rosterAfter changes, ∀ root,
      (Specifier.base? site.frame.config root site.path l.specifier).isSome := by
    intro l known root
    obtain ⟨file, specifier⟩ := Site.exists_file_of_mem_rosterAfter known
    rw [specifier, Specifier.of_eq_relative plain.relative]
    exact Specifier.isSome_base?_relative parent _ file
  obtain ⟨w', ended, place, cleaned, again, -⟩ := follow_cleanUp_listed plain.frame listed void
    settings placed read (fun l known => by rw [settings]; exact local_ l known _) saves
  refine ⟨w', ended, place, cleaned, ?_⟩
  let kept := (site.rosterAfter changes).filter (s.place.lives site.path)
  have listed' : Listed site.frame kept := Site.listed_filter listed _
  have local' : ∀ l ∈ kept, (Specifier.base? w'.config w'.root site.path l.specifier).isSome := by
    intro l known
    rw [cleaned.config, settings]
    exact local_ l (List.mem_of_mem_filter known) _
  -- No file is gone, so what was left lives on.
  have alive : ∀ l ∈ kept, w'.lives site.path l = true := by
    intro l known
    obtain ⟨base, based, file, target, there⟩ := Workspace.lives_iff.mp (List.of_mem_filter known)
    rw [← cleaned.config, ← cleaned.root] at based
    exact Workspace.lives_iff.mpr ⟨base, based, file, cleaned.config ▸ target, cleaned.stays file there⟩
  refine ⟨?_, fun talk => ?_⟩
  · have classes := listed'.orphansIn_eq plain.frame void local'
    have none_ : kept.filter (fun l => !w'.lives site.path l) = [] :=
      List.filter_eq_nil_iff.mpr fun l known => by simp [alive l known]
    rw [none_, List.map_nil, List.map_eq_nil_iff] at classes
    rw [Workspace.orphans, Workspace.read, cleaned.read]
    exact congrArg Except.ok classes
  · have placed' : w'.resolve given = site.path := by
      rw [← placed, Workspace.resolve, Workspace.resolve, cleaned.root]
    obtain ⟨w'', ended', place', -, -, idle⟩ := follow_cleanUp_listed (s := ⟨w', talk⟩) plain.frame
      listed' void (cleaned.config.trans settings) placed' cleaned.read local' again
    exact ⟨ended', place' ▸ idle alive⟩

/-- Of two pages in a registry one is gone; preferences are saved in a folder that is not there yet. -/
theorem follow_cleanUp_gone :
    let site : Site := ⟨⟨{}, "Site"⟩, ⟨"/w"⟩, ⟨"/w/site.ts"⟩⟩
    let pageA := "export class APage \x7b\x7d\n".toList
    let pageB := "export class BPage \x7b\x7d\n".toList
    let changes : List Change := [.add [⟨⟨"/w/a.page.ts"⟩, some pageA, false⟩,
      ⟨⟨"/w/b.page.ts"⟩, some pageB, false⟩]]
    let files := (Folder.empty.put "a.page.ts" (.file ⟨.text pageA, 0⟩)).put "site.ts"
      (.file ⟨.text (site.textAfter changes), 0⟩)
    let s : Session := ⟨⟨⟨{ top := Folder.empty.put "w" (.folder files) }, ⟨"/w"⟩, {}⟩,
      { file? := some ⟨"/home/prefs.json"⟩ }, 0⟩, {}⟩
    (s.follow (Workflow.cleanUp ⟨some ⟨"site.ts"⟩, true⟩)).1 = .ok .completed ∧
      (s.follow (Workflow.cleanUp ⟨some ⟨"site.ts"⟩, true⟩)).2.place.disk.readText ⟨"/w/site.ts"⟩ =
        .ok ((Layout.ofListings [⟨"APage", "./a.page"⟩]).text site.frame) := by
  intro site pageA pageB changes files s
  have plain : site.Plain := Site.plain_default (by decide +kernel) _ (by decide +kernel)
  have fitsA : site.Fits ⟨⟨"/w/a.page.ts"⟩, some pageA, false⟩ :=
    Site.fits_of_declared rfl (by decide +kernel)
      (by decide +kernel : isClassName "APage".toList = true) (by decide +kernel)
  have fitsB : site.Fits ⟨⟨"/w/b.page.ts"⟩, some pageB, false⟩ :=
    Site.fits_of_declared rfl (by decide +kernel)
      (by decide +kernel : isClassName "BPage".toList = true) (by decide +kernel)
  have spares : ∀ c ∈ changes, site.Spares c := by
    simpa [changes, Site.Spares] using ⟨fitsA, fitsB⟩
  have read : s.place.disk.readText site.path = .ok (site.textAfter changes) :=
    readText_eq_ok_iff.mpr ⟨["w", "site.ts"], 0, by decide +kernel, rfl⟩
  have saves : s.place.SavesApart site.path := by
    have saved : (s.place.store.save s.place.disk).1.toOption = some () := by decide +kernel
    have apart : ¬(s.place.store.save s.place.disk).2.Meet ⟨"/home/prefs.json"⟩ site.path := by
      decide +kernel
    refine ⟨toOption_eq_some_iff.mp saved, ?_⟩
    rintro own ⟨⟩
    exact apart
  have left : (site.rosterAfter changes).filter (s.place.lives site.path) =
      [⟨"APage", "./a.page"⟩] := by
    decide +kernel
  obtain ⟨w', ended, place, cleaned, -⟩ := follow_cleanUp plain spares (by decide +kernel) rfl
    (by decide +kernel : s.place.resolve ⟨"site.ts"⟩ = site.path) read saves
  exact ⟨ended, by rw [place, ← left]; exact cleaned.read⟩

end Session

end Registrar
