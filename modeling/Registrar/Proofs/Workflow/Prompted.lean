import Registrar.Proofs.Registry.Pruned
import Registrar.Proofs.Session.Shown
import Registrar.Proofs.Workflow.Offering
import Registrar.Proofs.Workflow.Twins
import Registrar.Proofs.Workspace.Nested

/-!
Options and prompts. What is given of a command in advance, and what is answered when the command asks for
it, lead to the same end. The two ways differ in how much is checked and where: a name that is answered has
been trimmed, a file that is picked is no longer looked for, and between the answers the user may be asked
about registries. Two workflows are compared step by step, each with the answers that it takes.
-/

namespace Registrar

open Inquiry

/-! ### What is given and what is picked -/

namespace Text

theorem trim_trim (t : Text) : trim (trim t) = trim t := by
  by_cases some_ : trim t = []
  · rw [some_]
    rfl
  · have alone : trim ([] ++ trim t ++ []) = trim t := (trimmed_trim t).trim_append some_ (by simp) (by simp)
    simpa using alone

theorem isBlank_trim (t : Text) : isBlank (trim t) = isBlank t := by
  obtain ⟨front, back, split, before_, after_⟩ := exists_trim t
  have whole : isBlank t = isBlank (front ++ trim t ++ back) := by rw [← split]
  rw [whole, isBlank, isBlank, List.all_append, List.all_append, List.all_eq_true.mpr before_,
    List.all_eq_true.mpr after_, Bool.true_and, Bool.and_true]

end Text

/-- A name as it is taken from an answer. -/
def Naming.typed (name : String) : String := String.ofList (Text.trim name.toList)

namespace Config

variable {config : Config} {name : String}

/-- A name is checked with white space around it as without. -/
theorem checkHelperName_typed :
    config.checkHelperName (Naming.typed name) = config.checkHelperName name := by
  rw [checkHelperName, checkHelperName, Naming.canonical, Naming.canonical, Naming.typed,
    String.toList_ofList, Text.trim_trim, Text.isBlank_trim]

/-- A name that passes a check says something. -/
theorem trim_ne_nil_of_checkClassName (valid : config.checkClassName (Naming.typed name) = .ok ()) :
    Text.trim name.toList ≠ [] := by
  intro none_
  rw [checkClassName, checkName, Naming.typed, none_] at valid
  cases valid

theorem trim_ne_nil_of_checkHelperName (valid : config.checkHelperName name = .ok ()) :
    Text.trim name.toList ≠ [] := by
  intro none_
  have blank : Text.isBlank name.toList = true := by
    rw [← Text.isBlank_trim, none_]
    rfl
  rw [checkHelperName, if_pos blank] at valid
  cases valid

end Config

/-- A source file has the path by which it would be given. -/
theorem Workspace.resolve_of_mem_sources {w : Workspace} {file : Path}
    (absolute : w.root.isAbsolute = true) (normal : w.root.IsNormal) (proper : w.disk.top.Proper)
    (member : file ∈ w.sources) : w.resolve file = file := by
  obtain ⟨dir, entries, root⟩ := normal.exists_names absolute
  obtain ⟨names, entries, rfl⟩ :
      ∃ names, (∀ n ∈ names, IsEntryName n) ∧ file = .ofNames true names := by
    have whole := member
    rw [sources] at member
    split at member
    · next inside found =>
      obtain ⟨below, source, rfl⟩ := (mem_sources_iff proper found).mp whole
      obtain ⟨_, _, _, _, at_⟩ := Disk.find_eq_ok_iff.mp found
      obtain ⟨f, there⟩ := source.1
      have inner := (proper.of_at? at_).entries_of_at? there
      have all : ∀ n ∈ dir ++ below, IsEntryName n := fun n member =>
        (List.mem_append.mp member).elim (entries n) (inner n)
      exact ⟨dir ++ below, all, by rw [root, Path.descend_ofNames all]⟩
    · split at member
      · exact ⟨dir, entries, by rw [← root, List.mem_singleton.mp member]⟩
      · cases member
    · cases member
  exact resolve_of_isNormal (Path.isAbsolute_ofNames entries true) (Path.normal_ofNames entries)

/-! ### Two ways to the same end -/

/-- Two runs have come to the same outcome, and to the same place but for the moment of one use. -/
def Session.EndsAlike (e e' : Except Failure Outcome × Session) : Prop :=
  e'.1 = e.1 ∧ e.2.place.SameButStamp e'.2.place

namespace Workflow

variable {Plan Plan' : Type} {α β : Type} {w : Workplace} {staged staged' : List Staged}
  {answers answers' more more' : List Answer} {c : Plan → Action Unit} {c' : Plan' → Action Unit}

/-- With their answers in front, and the same ones behind them, the two workflows come to the same end,
whatever the time and whatever the user has seen. -/
def Alike (w : Workplace) (staged : List Staged) (answers answers' : List Answer)
    (given : Workflow Plan) (asked : Workflow Plan') : Prop :=
  ∀ clock events events' rest, Session.EndsAlike
    (Session.follow ⟨w, ⟨.script (answers ++ rest), events, staged⟩⟩ given)
    (Session.follow ⟨{ w with clock }, ⟨.script (answers' ++ rest), events', staged⟩⟩ asked)

/-- Both go on the same way. -/
theorem Alike.of_parallel {R : Session → Session → Prop} {f : Workflow Plan}
    (parallel : Parallel R Session.SameEnd (·.follow f))
    (kin : ∀ s s' : Session, s.Twin s' → s.talk.staged = staged → R s s') :
    Alike w staged [] [] f f := fun _ _ _ _ => parallel _ _ (kin _ _ ⟨rfl, rfl, rfl⟩ rfl)

/-- Each has come to a result by its own answers. -/
theorem Alike.bind {i : Inquiry α} {i' : Inquiry β} {f : α → Inquiry (Decision Plan)}
    {f' : β → Inquiry (Decision Plan')} {a : α} {a' : β} (first : Takes w answers staged i a staged')
    (first' : ∀ clock, Takes { w with clock } answers' staged i' a' staged')
    (rest : Alike w staged' more more' ⟨f a, c⟩ ⟨f' a', c'⟩) :
    Alike w staged (answers ++ more) (answers' ++ more') ⟨i >>= f, c⟩ ⟨i' >>= f', c'⟩ := by
  intro clock events events' others
  obtain ⟨_, led⟩ := first events (more ++ others)
  obtain ⟨_, led'⟩ := first' clock events' (more' ++ others)
  rw [follow_bind, follow_bind, List.append_assoc, List.append_assoc, led, led']
  exact rest clock _ _ others

/-- What is given to the one is asked of the other. -/
theorem Alike.asks {i : Inquiry α} {i' : Inquiry β} {f : α → Inquiry (Decision Plan)}
    {f' : β → Inquiry (Decision Plan')} {a : α} {a' : β} {answer : Answer}
    (first : Takes w [] staged i a staged')
    (first' : ∀ clock, Takes { w with clock } [answer] staged i' a' staged')
    (rest : Alike w staged' more more' ⟨f a, c⟩ ⟨f' a', c'⟩) :
    Alike w staged more (answer :: more') ⟨i >>= f, c⟩ ⟨i' >>= f', c'⟩ :=
  Alike.bind first first' rest

theorem Alike.read {f : Workplace → Inquiry (Decision Plan)} {f' : Workplace → Inquiry (Decision Plan')}
    (rest : Alike w staged answers answers' ⟨f w, c⟩ ⟨f' w, c'⟩)
    (timeless : ∀ clock, f' { w with clock } = f' w) :
    Alike w staged answers answers' ⟨MonadReader.read >>= f, c⟩ ⟨MonadReader.read >>= f', c'⟩ := by
  intro clock events events' others
  have reads : ∀ {Plan : Type} {c : Plan → Action Unit} {f : Workplace → Inquiry (Decision Plan)}
      (s : Session), s.follow ⟨MonadReader.read >>= f, c⟩ = s.follow ⟨f s.place, c⟩ := fun _ => rfl
  rw [reads, reads, timeless]
  exact rest clock events events' others

theorem Alike.throw (why : Failure) :
    Alike w staged answers answers' ⟨throw why, c⟩ ⟨throw why, c'⟩ :=
  fun _ _ _ _ => ⟨rfl, .inl rfl⟩

/-! ### The commands -/

theorem takes_folderOr_some {words : String} (given : Path) :
    Takes w [] staged (folderOr (some given) words) (some (w.resolve given)) staged :=
  .read (.pure _)

theorem takes_folderOr_none {words : String} (given : Path) (clock : Stamp) :
    Takes { w with clock } [.folder (some given)] staged (folderOr none words)
      (some (w.resolve given)) staged :=
  Takes.folder given

theorem takes_named_none {words name : String} {check : String → Except NameFault Unit}
    (passes : check (Naming.typed name) = .ok ()) (some_ : Text.trim name.toList ≠ []) :
    Takes w [.text (some name)] staged (named none words check) (some (Naming.typed name)) staged :=
  Takes.text passes some_

theorem takes_named_some {words name : String} {check : String → Except NameFault Unit}
    (passes : check name = .ok ()) : Takes w [] staged (named (some name) words check) (some name) staged := by
  rw [named]
  simp only [passes]
  exact .pure _

/-- A new registry is the same, its folder and its name given or asked for. -/
theorem alike_newRegistry {d : Path} {name : String} (label? : Option String)
    (valid : w.config.checkClassName (Naming.typed name) = .ok ()) :
    Alike w staged [] [.folder (some d), .text (some name)] (newRegistry ⟨some d, some name, label?⟩)
      (newRegistry ⟨none, none, label?⟩) := by
  have parts : ∀ options, newRegistry options = ⟨_, (newRegistry options).carryOut⟩ := fun options =>
    congrArg (Workflow.mk · _) (inquire_newRegistry options)
  rw [parts ⟨some d, some name, label?⟩, parts ⟨none, none, label?⟩]
  refine .read (.asks (takes_folderOr_some d) (takes_folderOr_none d) ?_) fun _ => rfl
  refine .asks (takes_named_some valid)
    (fun clock => takes_named_none valid (Config.trim_ne_nil_of_checkClassName valid)) ?_
  exact .of_parallel (parallel_planRegistry _ _ _ _ _) fun _ _ twin _ => twin

/-- A new helper is the same, its folder, its name and whether it is registered given or asked for. -/
theorem alike_newHelper {d : Path} {name : String} (register : Bool) (into? : Option Path)
    (valid : w.config.checkHelperName name = .ok ()) :
    Alike w staged [] [.folder (some d), .text (some name), .confirmation register]
      (newHelper ⟨some d, some name, some register, into?⟩)
      (newHelper ⟨none, none, none, into?⟩) := by
  have parts : ∀ options, newHelper options = ⟨_, (newHelper options).carryOut⟩ := fun options =>
    congrArg (Workflow.mk · _) (inquire_newHelper options)
  rw [parts ⟨some d, some name, some register, into?⟩, parts ⟨none, none, none, into?⟩]
  have typed : w.config.checkHelperName (Naming.typed name) = .ok () :=
    Config.checkHelperName_typed.trans valid
  refine .read (.asks (takes_folderOr_some d) (takes_folderOr_none d) ?_) fun _ => rfl
  refine .asks (takes_named_some valid)
    (fun clock => takes_named_none typed (Config.trim_ne_nil_of_checkHelperName valid)) ?_
  have same : Naming.canonical w.config.classSuffix (Naming.typed name) =
      Naming.canonical w.config.classSuffix name := by
    rw [Naming.canonical, Naming.canonical, Naming.typed, String.toList_ofList, Text.trim_trim]
  dsimp only
  rw [planHelper, planHelper, same]
  dsimp only
  split
  · exact .throw _
  · exact .asks (.pure register) (fun clock => Takes.confirmation register)
      (.of_parallel (parallel_registerHelper _ _ _ _ _ _) fun _ _ twin _ => twin)

/-- What is taken at one time is taken at another. -/
theorem takes_registry_clock {given? path? : Option Path}
    (takes : Takes w answers staged (registry given?) path? staged') (clock : Stamp) :
    Takes { w with clock } answers staged (registry given?) path? staged' := by
  intro events rest
  obtain ⟨_, led⟩ := takes events rest
  obtain ⟨same, left⟩ := twin_registry given? ⟨w, ⟨.script (answers ++ rest), events, staged⟩⟩
    ⟨{ w with clock }, ⟨.script (answers ++ rest), events, staged⟩⟩ ⟨rfl, rfl, rfl⟩
  dsimp only at same left
  rw [led] at same left
  have there := Session.inquire_place
    ⟨{ w with clock }, ⟨.script (answers ++ rest), events, staged⟩⟩ (registry given?)
  generalize Session.inquire _ _ = ended at same left there
  obtain ⟨result, ⟨place, ⟨respondent, events', later⟩⟩⟩ := ended
  obtain rfl : result = .ok path? := same
  obtain rfl : place = { w with clock } := there
  obtain rfl : respondent = .script rest := left.respondent
  obtain rfl : later = staged' := left.staged
  exact ⟨events', rfl⟩

/-- Both choose the same registry by the same answers. -/
theorem Alike.withRegistry {given? : Option Path} {path : Path}
    {next : Path → Inquiry (Decision Plan)} {next' : Path → Inquiry (Decision Plan')}
    (takes : Takes w answers staged (registry given?) (some path) staged')
    (rest : Alike w staged' more more' ⟨next path, c⟩ ⟨next' path, c'⟩) :
    Alike w staged (answers ++ more) (answers ++ more') ⟨withRegistry given? next, c⟩
      ⟨withRegistry given? next', c'⟩ :=
  Alike.bind takes (takes_registry_clock takes) rest

end Workflow

namespace Inquiry

variable {α β : Type} {w : Workplace} {staged : List Staged} {registry : Path} {t : Text}

theorem takes_readText (there : w.disk.readText registry = .ok t) :
    Takes w [] staged (readText registry) t staged := by
  refine .read ?_
  simp only [there]
  exact .pure _

theorem Takes.mapM {l : List β} {f : β → Inquiry β} (each : ∀ b ∈ l, Takes w [] staged (f b) b staged) :
    Takes w [] staged (l.mapM f) l staged := by
  induction l with
  | nil =>
    rw [List.mapM_nil]
    exact .pure _
  | cons b rest ih =>
    rw [List.mapM_cons]
    exact (each b (by simp)).after ((ih fun c member => each c (by simp [member])).after (.pure _))

theorem takes_givenHelpers {files : List Path} (found : ∀ file ∈ files, w.resolve file = file)
    (there : ∀ file ∈ files, w.disk.isFile file = true) :
    Takes w [] staged (givenHelpers files) files staged := by
  refine .read ?_
  have same : files.map w.resolve = files := (List.map_congr_left found).trans (List.map_id' _)
  rw [same]
  refine .mapM fun file member => ?_
  rw [there file member]
  exact .pure _

end Inquiry

/-- The helpers that are offered to a registry with a text, in their order. -/
def Workplace.offeredTo (w : Workplace) (registry : Path) (t : Text) : List HelperFile :=
  w.inOrder (Offer.helpers (w.helperFiles.map (w.offerOf registry (Zones.ofText t))))

namespace Inquiry

variable {w : Workplace} {staged : List Staged} {registry : Path} {t : Text} {places : List Nat}

/-- Helpers are picked among those that are offered. -/
theorem takes_pickHelpers {picked : List HelperFile} (there : w.disk.readText registry = .ok t)
    (picks : Picked (w.offeredTo registry t) places picked) (clock : Stamp) :
    Takes { w with clock } [.several (some places)] staged (pickHelpers registry)
      (some (picked.map (·.file))) staged := by
  refine .read (Takes.after (takes_readText there) ?_)
  refine Takes.after (.forM fun _ => .say _ _) ?_
  have some_ : (w.offeredTo registry t).isEmpty = false := picks.isEmpty_eq_false
  have asks : Takes { w with clock } [.several (some places)] staged (do
      if (w.offeredTo registry t).isEmpty then throw (.nothingToAdd w.root)
      let picked? ← several "Helpers to add"
        (fun h => h.identity.name ++ " (" ++ w.shown h.file ++ ")") (w.offeredTo registry t)
      return picked?.map (·.map (·.file))) (some (picked.map (·.file))) staged := by
    rw [some_]
    exact (Takes.several picks).before (.pure _)
  dsimp only
  split
  · exact Takes.after (.say _ _) asks
  · exact asks

/-- Classes are picked among those of a registry. -/
theorem takes_pickRegistered {z : Zones} {picked : List String}
    (picks : Picked (z.helpers.map (·.2)) places picked) :
    Takes w [.several (some places)] staged (pickRegistered registry z) (some picked) staged := by
  rw [pickRegistered]
  dsimp only
  rw [picks.isEmpty_eq_false]
  exact .several picks

/-- The files of a removal, and whether it is confirmed, are the same for kin. -/
theorem heedless_filesOf {R : Session → Session → Prop} (kinship : Kinship R) (registry : Path)
    (z : Zones) (classes : List String) : Heedless R (filesOf registry z classes) := by
  refine .read kinship (fun w => (Heedless.forM fun fate => ?_).bind fun _ => ?_) fun _ _ => rfl
  · split
    · exact .record kinship _
    · exact .pure ()
  · dsimp only
    split
    · exact (Heedless.throw _).bind fun _ => .pure _
    · exact .pure _

end Inquiry

namespace Workflow

variable {w : Workplace} {staged : List Staged} {answers : List Answer} {given? : Option Path}
  {path : Path} {removed : List Remembered} {moved? : Option Remembered} {t : Text} {places : List Nat}

/-- Helpers are added to the same registry, their files given or picked among those that are offered. -/
theorem alike_add {picked : List HelperFile} (absolute : w.root.isAbsolute = true)
    (normal : w.root.IsNormal) (proper : w.disk.top.Proper)
    (takes : Takes w answers staged (registry given?) (some path) (Staged.ofChoice removed moved? path))
    (there : w.disk.readText path = .ok t) (picks : Picked (w.offeredTo path t) places picked) :
    Alike w staged (answers ++ []) (answers ++ [.several (some places)])
      (add ⟨given?, picked.map (·.file)⟩) (add ⟨given?, []⟩) := by
  have sources : ∀ file ∈ picked.map (·.file), file ∈ w.sources := by
    intro file member
    obtain ⟨h, inside, rfl⟩ := List.mem_map.mp member
    exact Workspace.mem_sources_of_mem_helperFiles (Workplace.mem_of_mem_inOrder (picks.mem inside)).1
  have given : ∀ staged, Takes w [] staged (givenHelpers (picked.map (·.file))) (picked.map (·.file))
      staged := fun _ => takes_givenHelpers
    (fun file member => Workspace.resolve_of_mem_sources absolute normal proper (sources file member))
    fun file member => Workspace.isFile_of_mem_sources proper (sources file member)
  have some_ : (picked.map (·.file)).isEmpty = false := by simpa using picks.1
  refine .withRegistry takes ?_
  dsimp only
  rw [some_]
  refine .asks (given _) (takes_pickHelpers there picks) ?_
  exact .of_parallel (parallel_carryOut (Action.parallel_addAndReport _ _)) fun _ _ twin chosen =>
    ⟨twin, removed, moved?, path, chosen⟩

/-- Helpers are removed from the same registry, their classes given or picked among the registered. -/
theorem alike_remove {picked : List String} (deletesFiles sure : Bool)
    (takes : Takes w answers staged (registry given?) (some path) (Staged.ofChoice removed moved? path))
    (there : w.disk.readText path = .ok t)
    (picks : Picked ((Zones.ofText t).helpers.map (·.2)) places picked) :
    Alike w staged (answers ++ []) (answers ++ [.several (some places)])
      (remove ⟨given?, picked, deletesFiles, sure⟩) (remove ⟨given?, [], deletesFiles, sure⟩) := by
  have some_ : picked.isEmpty = false := by simpa using picks.1
  refine .withRegistry takes ?_
  dsimp only
  rw [some_]
  refine Alike.bind (takes_readText there) (fun _ => takes_readText there) ?_
  refine .asks (.pure _) (fun clock => takes_pickRegistered picks) ?_
  have plans : ∀ files, Heedless Session.Decided (confirmed sure
      (RemovingPlan.question ⟨path, picked, files⟩) false (⟨path, picked, files⟩ : RemovingPlan)) :=
    fun _ => .confirmed Session.kinship_decided _ _ _ _
  refine .of_parallel (parallel_whole (fun kin => kin.toTwin.sameEnd) ?_
    fun plan => parallel_remove_carryOut ⟨given?, picked, deletesFiles, sure⟩ plan) fun _ _ twin chosen =>
      ⟨twin, removed, moved?, path, chosen⟩
  dsimp only
  split
  · exact (heedless_filesOf Session.kinship_decided _ _ _).bind plans
  · exact (Heedless.pure _).bind plans

/-- Where no registry is come to, nothing of it is given or asked. -/
theorem endsAlike_of_no_registry {Plan Plan' : Type} {c : Plan → Action Unit} {c' : Plan' → Action Unit}
    {next : Path → Inquiry (Decision Plan)} {next' : Path → Inquiry (Decision Plan')} {s s' : Session}
    (twin : s.Twin s') (none_ : ∀ path m, s.inquire (registry given?) ≠ (.ok (some path), m)) :
    Session.EndsAlike (s.follow ⟨withRegistry given? next, c⟩)
      (s'.follow ⟨withRegistry given? next', c'⟩) := by
  obtain ⟨same, left⟩ := twin_registry given? s s' twin
  dsimp only at same left
  rw [withRegistry, withRegistry, follow_bind, follow_bind]
  generalize s.inquire (registry given?) = ended at same left none_
  generalize s'.inquire (registry given?) = ended' at same left
  obtain ⟨_, m⟩ := ended
  obtain ⟨result, m'⟩ := ended'
  obtain rfl := same
  rcases result with why | _ | path
  · exact ⟨rfl, .inl left.place⟩
  · exact ⟨rfl, .inl left.place⟩
  · exact absurd rfl (none_ path m)

end Workflow

open Workflow in
/-- What is given of a command and what is answered when it asks come to the same outcome and the same
place, but for the moment of the one use that is remembered. A folder and a name that passes its check
make the same registry, and with a yes or a no the same helper. Where the choice of a registry has heard
some answers, helpers that are picked next, each by its place, are added or removed as if their files or
classes had been given; where it has come to no registry, neither is asked for. -/
theorem Session.follow_prompted {w : Workplace} (absolute : w.root.isAbsolute = true)
    (normal : w.root.IsNormal) (proper : w.disk.top.Proper) (clock : Stamp) (events : List Event)
    (staged : List Staged) :
    let given (answers : List Answer) : Session := ⟨w, ⟨.script answers, events, staged⟩⟩
    let asked (answers : List Answer) : Session :=
      ⟨{ w with clock }, ⟨.script answers, events, staged⟩⟩
    (∀ folder name label? rest, w.config.checkClassName (Naming.typed name) = .ok () →
      EndsAlike ((given rest).follow (newRegistry ⟨some folder, some name, label?⟩))
        ((asked (.folder (some folder) :: .text (some name) :: rest)).follow
          (newRegistry ⟨none, none, label?⟩))) ∧
    (∀ folder name register into? rest, w.config.checkHelperName name = .ok () →
      EndsAlike ((given rest).follow (newHelper ⟨some folder, some name, some register, into?⟩))
        ((asked (.folder (some folder) :: .text (some name) :: .confirmation register :: rest)).follow
          (newHelper ⟨none, none, none, into?⟩))) ∧
    (∀ path? path heard rest m t places,
      (given (heard ++ rest)).inquire (registry path?) = (.ok (some path), m) →
      m.talk.respondent = .script rest → w.disk.readText path = .ok t →
      (∀ picked, Picked (w.offeredTo path t) places picked →
        EndsAlike ((given (heard ++ rest)).follow (add ⟨path?, picked.map (·.file)⟩))
          ((asked (heard ++ .several (some places) :: rest)).follow (add ⟨path?, []⟩))) ∧
      ∀ picked deletesFiles sure, Picked ((Zones.ofText t).helpers.map (·.2)) places picked →
        EndsAlike ((given (heard ++ rest)).follow (remove ⟨path?, picked, deletesFiles, sure⟩))
          ((asked (heard ++ .several (some places) :: rest)).follow
            (remove ⟨path?, [], deletesFiles, sure⟩))) ∧
    ∀ path? answers,
      (∀ path m, (given answers).inquire (registry path?) ≠ (.ok (some path), m)) →
      (∀ files, EndsAlike ((given answers).follow (add ⟨path?, files⟩))
        ((asked answers).follow (add ⟨path?, []⟩))) ∧
      ∀ classes deletesFiles sure,
        EndsAlike ((given answers).follow (remove ⟨path?, classes, deletesFiles, sure⟩))
          ((asked answers).follow (remove ⟨path?, [], deletesFiles, sure⟩)) := by
  intro given asked
  refine ⟨fun folder name label? rest valid => ?_, fun folder name register into? rest valid => ?_,
    fun path? path heard rest m t places chosen left there => ?_,
    fun path? answers none_ => ?_⟩
  · exact alike_newRegistry label? valid clock events events rest
  · exact alike_newHelper register into? valid clock events events rest
  · obtain ⟨used, removed, moved?, hears, -, -, takes⟩ := takes_of_inquire_registry chosen
    obtain rfl : used = heard := hears.unique (.inr ⟨rest, rfl, left⟩)
    refine ⟨fun picked picks => ?_, fun picked deletesFiles sure picks => ?_⟩
    · simpa using alike_add absolute normal proper (takes staged) there picks clock events events rest
    · simpa using alike_remove deletesFiles sure (takes staged) there picks clock events events rest
  · have twin : (given answers).Twin (asked answers) := ⟨rfl, rfl, rfl⟩
    exact ⟨fun _ => endsAlike_of_no_registry twin none_, fun _ _ _ => endsAlike_of_no_registry twin none_⟩

open Workflow in
/-- A remembered registry is gone and given up, so the first of the workspace is used: a shop page is made
and put into it, the login page is added, and the cart page is removed. -/
theorem Session.follow_prompted_gone :
    let page (name : String) : File := ⟨.text ("export class " ++ name ++ " \x7b\x7d\n").toList, 0⟩
    let site := ("import \x7b Cart \x7d from './cart.page';\n\nexport class Site \x7b\n" ++
      "  private static instance: Site;\n  private constructor() \x7b\x7d\n" ++
      "  public getCart(): Cart \x7b\x7d\n\x7d\n").toList
    let files : Folder := .file "cart.page.ts" (page "Cart") <| .file "login.page.ts" (page "Login") <|
      .file "site.ts" ⟨.text site, 0⟩ .empty
    let w : Workplace := ⟨⟨{ top := .folder "w" files .empty }, ⟨"/w"⟩, {}⟩,
      { preferences := { registries := [⟨⟨"/w/old.ts"⟩, "old", 1⟩] } }, 5⟩
    let given (answers : List Answer) : Session := ⟨w, ⟨.script answers, [], []⟩⟩
    let asked (answers : List Answer) : Session := ⟨{ w with clock := 9 }, ⟨.script answers, [], []⟩⟩
    let gone : List Answer := [.one (some 0), .one (some 0)]
    EndsAlike ((given [.one (some 0)]).follow (newRegistry ⟨some ⟨"shop"⟩, some " Shop ", none⟩))
        ((asked [.folder (some ⟨"shop"⟩), .text (some " Shop "), .one (some 0)]).follow
          (newRegistry ⟨none, none, none⟩)) ∧
      EndsAlike ((given gone).follow (newHelper ⟨some ⟨"shop"⟩, some " Shop ", some true, none⟩))
        ((asked (.folder (some ⟨"shop"⟩) :: .text (some " Shop ") :: .confirmation true :: gone)).follow
          (newHelper ⟨none, none, none, none⟩)) ∧
      EndsAlike ((given (gone ++ [])).follow (add ⟨none, [⟨"/w/login.page.ts"⟩]⟩))
        ((asked (gone ++ [.several (some [0])])).follow (add ⟨none, []⟩)) ∧
      EndsAlike ((given (gone ++ [])).follow (remove ⟨none, ["Cart"], false, true⟩))
        ((asked (gone ++ [.several (some [0])])).follow (remove ⟨none, [], false, true⟩)) := by
  intro page site files w given asked gone
  have absolute : w.root.isAbsolute = true := by decide +kernel
  have normal : (⟨"/w"⟩ : Path).normal = ⟨"/w"⟩ := by decide +kernel
  have proper : w.disk.top.Proper :=
    ⟨by decide +kernel, rfl,
      ⟨by decide +kernel, rfl, by decide +kernel, rfl, by decide +kernel, rfl, trivial⟩, trivial⟩
  obtain ⟨registry, helper, chosen, -⟩ := follow_prompted absolute normal proper 9 [] []
  have found : ((given (gone ++ [])).inquire (Inquiry.registry none)).1.toOption =
        some (some ⟨"/w/site.ts"⟩) ∧
      ((given (gone ++ [])).inquire (Inquiry.registry none)).2.talk.respondent = .script [] := by
    decide +kernel
  have read : w.disk.readText ⟨"/w/site.ts"⟩ = .ok site :=
    Disk.readText?_eq_some_iff.mp (by decide +kernel)
  have listed : w.offeredTo ⟨"/w/site.ts"⟩ site = [⟨⟨"/w/login.page.ts"⟩, .declared "Login"⟩] ∧
      (Zones.ofText site).helpers.map (·.2) = ["Cart"] := by
    decide +kernel
  obtain ⟨adds, removes⟩ := chosen none ⟨"/w/site.ts"⟩ gone [] _ site [0]
    (Prod.ext (toOption_eq_some_iff.mp found.1) rfl) found.2 read
  refine ⟨registry _ _ _ _ (toOption_eq_some_iff.mp (by decide +kernel)),
    helper _ _ _ _ _ (toOption_eq_some_iff.mp (by decide +kernel)), ?_, ?_⟩
  · exact adds [⟨⟨"/w/login.page.ts"⟩, .declared "Login"⟩] ⟨by simp, by rw [listed.1]; rfl⟩
  · exact removes ["Cart"] false true ⟨by simp, by rw [listed.2]; rfl⟩
end Registrar
