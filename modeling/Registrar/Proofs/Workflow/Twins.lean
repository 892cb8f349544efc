import Registrar.Proofs.Session.Kinship
import Registrar.Proofs.Session.Search

/-!
The same command twice, at two times and after other words. Twins have the same answers left, the same
staged and the same workplace but for the time; what they have seen may differ. What a command finds out
and does is the same for them, until a registry is remembered with the moment of its use.
-/

namespace Registrar

open Disk

/-! ### Places -/

namespace Store

/-- Whether preferences can be written does not depend on what they say. -/
theorem save_fst_congr {s s' : Store} (same : s'.file? = s.file?) (d : Disk) :
    (s'.save d).1 = (s.save d).1 := by
  have writes : ∀ (d : Disk) (file : Path) (t t' : Text),
      (d.write file t').map (fun _ => ()) = (d.write file t).map fun _ => () := by
    intro d file t t'
    rw [Disk.write, Disk.write]
    cases d.place file with
    | error why => rfl
    | ok there =>
      obtain ⟨here, _ | n⟩ := there
      · rfl
      · dsimp only [bind, Except.bind]
        split
        · rfl
        · split <;> rfl
  rw [save, save, same]
  cases s.file? with
  | none => rfl
  | some file =>
    dsimp only
    cases file.parent?.elim (.ok d) d.makeFolders with
    | error why => rfl
    | ok d =>
      dsimp only
      have wrote := writes d file s.preferences.text s'.preferences.text
      revert wrote
      cases d.write file s.preferences.text <;> cases d.write file s'.preferences.text <;>
        simp [Except.map]

end Store

namespace Workplace

variable {w w' : Workplace}

/-- The workplaces are the same but for the time, or were the same but for the time before one use of a
registry was remembered in both. -/
def SameButStamp (w w' : Workplace) : Prop :=
  w' = { w with clock := w'.clock } ∨ ∃ (v : Workplace) (path : Path) (label? : Option String),
    w = (v.upsert path label?).2 ∧ w' = ({ v with clock := w'.clock }.upsert path label?).2

/-- One entry differs at most, and only in the moment of its use. -/
theorem SameButStamp.registries (same : w.SameButStamp w') :
    w'.store.preferences.registries = w.store.preferences.registries ∨
      ∃ front r moment back, w.store.preferences.registries = front ++ r :: back ∧
        w'.store.preferences.registries = front ++ { r with lastUsed := moment } :: back := by
  have changes : ∀ (path : Path) (label? : Option String) (moment moment' : Stamp) (l : List Remembered),
      ∃ front r back,
        Preferences.change path (fun r => { r with lastUsed := moment, label := label?.getD r.label })
          ⟨path, label?.getD (Preferences.defaultLabel path), moment⟩ l = front ++ r :: back ∧
        Preferences.change path (fun r => { r with lastUsed := moment', label := label?.getD r.label })
          ⟨path, label?.getD (Preferences.defaultLabel path), moment'⟩ l =
            front ++ { r with lastUsed := moment' } :: back := by
    intro path label? moment moment' l
    induction l with
    | nil => exact ⟨[], _, [], rfl, rfl⟩
    | cons r rest ih =>
      rw [Preferences.change, Preferences.change]
      split
      · exact ⟨[], _, rest, rfl, rfl⟩
      · obtain ⟨front, r', back, first, second⟩ := ih
        exact ⟨r :: front, r', back, by rw [first]; rfl, by rw [second]; rfl⟩
  rcases same with same | ⟨v, path, label?, rfl, same⟩
  · exact .inl (by rw [same])
  · obtain ⟨front, r, back, first, second⟩ := changes path label?
      (v.store.preferences.nextStamp v.clock) (v.store.preferences.nextStamp w'.clock)
      v.store.preferences.registries
    exact .inr ⟨front, r, _, back, first, by rw [same]; exact second⟩

/-- The disks are the same, or were the same before preferences were written. -/
theorem SameButStamp.disk (same : w.SameButStamp w') : w'.disk = w.disk ∨
    ∃ d, w.disk = (w.store.save d).2 ∧ w'.disk = (w'.store.save d).2 := by
  rcases same with same | ⟨v, path, label?, rfl, same⟩
  · exact .inl (by rw [same])
  · exact .inr ⟨v.disk, rfl, by rw [same]; rfl⟩

/-- To forget a registry takes no time. -/
theorem commit_forget_clock (w : Workplace) (clock : Stamp) (path : Path) :
    ({ w with clock } : Workplace).commit (.forget path) =
      ((w.commit (.forget path)).1, { (w.commit (.forget path)).2 with clock }) := by
  rw [commit, commit, forget, forget]
  dsimp only
  split
  · rw [remember, remember]
  · rfl

theorem upsert_fst (w : Workplace) (path : Path) (label? : Option String) :
    (w.upsert path label?).1 =
      (Store.save { w.store with preferences := w.store.preferences.upsert w.clock path label? }
        w.disk).1 := by
  rw [upsert, remember]

theorem clock_upsert (w : Workplace) (path : Path) (label? : Option String) :
    (w.upsert path label?).2.clock = w.clock := by
  rw [upsert, remember]

end Workplace

namespace Session

/-- The sessions differ at most in the time and in what the user has seen. -/
structure Twin (s s' : Session) : Prop where
  place : s'.place = { s.place with clock := s'.place.clock }
  respondent : s'.talk.respondent = s.talk.respondent
  staged : s'.talk.staged = s.talk.staged

/-- In both sessions, the same registry has been chosen. -/
structure Decided (s s' : Session) : Prop extends Twin s s' where
  chosen : ∃ removed moved? path, s.talk.staged = Staged.ofChoice removed moved? path

/-- The sessions have ended in the same place but for the moment of one use. -/
def SameEnd (s s' : Session) : Prop := s.place.SameButStamp s'.place

variable {s s' : Session}

theorem Twin.sameEnd (twin : s.Twin s') : s.SameEnd s' := .inl twin.place

theorem kinship_twin : Kinship Twin where
  place kin := kin.place
  respondent kin := kin.respondent
  hears kin _ := ⟨kin.place, rfl, kin.staged⟩
  sees kin _ := ⟨kin.place, kin.respondent, kin.staged⟩
  finds kin _ := ⟨by rw [kin.place], kin.respondent, kin.staged⟩

theorem kinship_decided : Kinship Decided where
  place kin := kin.place
  respondent kin := kin.respondent
  hears kin respondent := ⟨kinship_twin.hears kin.toTwin respondent, kin.chosen⟩
  sees kin e := ⟨kinship_twin.sees kin.toTwin e, kin.chosen⟩
  finds kin disk := ⟨kinship_twin.finds kin.toTwin disk, kin.chosen⟩

end Session

open Session

/-! ### The choice of a registry -/

namespace Inquiry

theorem twin_stage (change : Staged) : Heedless Twin (stage change) :=
  fun _ _ twin => ⟨rfl, twin.place, twin.respondent, congrArg (· ++ [change]) twin.staged⟩

theorem twin_settleOn (path : Path) (label? : Option String) : Heedless Twin (settleOn path label?) :=
  (twin_stage _).bind fun _ => .pure _

theorem twin_remaining : Heedless Twin remaining := by
  intro s s' twin
  obtain ⟨w, talk⟩ := s
  obtain ⟨w', talk'⟩ := s'
  have left : Session.inquire ⟨w, talk⟩ (remaining >>= pure) = _ := inquire_remaining_bind pure
  have left' : Session.inquire ⟨w', talk'⟩ (remaining >>= pure) = _ := inquire_remaining_bind pure
  rw [bind_pure] at left left'
  dsimp only
  rw [left, left', twin.staged]
  obtain same : w' = { w with clock := w'.clock } := twin.place
  rw [same]
  exact ⟨rfl, same ▸ twin⟩

theorem twin_remedy (r : Remembered) (tries : Nat) : Heedless Twin (remedy r tries) := by
  induction tries with
  | zero => exact .throw _
  | succ tries ih =>
    rw [remedy]
    refine (Heedless.ask kinship_twin).bind fun choice? => ?_
    split
    · exact (twin_stage _).bind fun _ => (Heedless.record kinship_twin _).bind fun _ => .pure _
    · refine (Heedless.file kinship_twin _).bind fun path? => ?_
      split
      · exact .pure _
      · refine .read kinship_twin (fun w => ?_) fun _ _ => rfl
        split
        · exact (twin_stage _).bind fun _ => twin_settleOn _ _
        · exact (Heedless.record kinship_twin _).bind fun _ => ih
    · exact .pure _

theorem twin_amongRemembered : Heedless Twin amongRemembered := by
  refine .read kinship_twin (fun w => twin_remaining.bind fun left => ?_) fun _ _ => rfl
  extract_lets go_on
  have goes_on : ∀ choice?, Heedless Twin (go_on choice?) := by
    intro choice?
    dsimp only [go_on]
    split
    · exact .pure _
    · split
      · exact (Heedless.record kinship_twin _).bind fun _ =>
          .patience kinship_twin fun _ => twin_remedy _ _
      · exact twin_settleOn _ _
  split
  · exact .pure _
  · split
    · exact (Heedless.ask kinship_twin).bind goes_on
    · exact (Heedless.pure _).bind goes_on
  · exact (Heedless.ask kinship_twin).bind goes_on

theorem twin_firstRegistry : Heedless Twin firstRegistry := by
  refine .read kinship_twin (fun w => ?_) fun _ _ => rfl
  split
  · exact .throw _
  · exact (Heedless.record kinship_twin _).bind fun _ => twin_settleOn _ _

theorem twin_search (tries : Nat) : Heedless Twin (search tries) := by
  induction tries with
  | zero => exact twin_firstRegistry
  | succ tries ih =>
    rw [search_succ]
    refine twin_amongRemembered.bind fun found => ?_
    split
    · exact ih
    · exact twin_firstRegistry
    · exact .pure _

theorem twin_registry (given? : Option Path) : Heedless Twin (registry given?) := by
  have clears : Heedless Twin (modify fun t => { t with staged := [] } : Inquiry Unit) :=
    fun _ _ twin => ⟨rfl, twin.place, twin.respondent, rfl⟩
  cases given? with
  | some given =>
    rw [registry_some]
    refine clears.bind fun _ => .read kinship_twin (fun w => ?_) fun _ _ => by dsimp only
    split
    · exact (twin_stage _).bind fun _ => .pure _
    · exact .throw _
  | none =>
    rw [registry_none]
    refine clears.bind fun _ => .read kinship_twin (fun w => ?_) fun _ _ => rfl
    refine (twin_search _).bind fun found => ?_
    split <;> exact .pure _

end Inquiry

/-! ### What is done -/

namespace Action

/-- What is told in the end changes nothing. -/
theorem parallel_tells {α : Type} {R : Session → Session → Prop} {a : Action α} {f : α → Action Unit}
    (first : Parallel R SameEnd (·.act a)) (tells : ∀ x, OnlyTells (f x)) :
    Parallel R SameEnd (·.act (a >>= f)) := by
  intro s s' kin
  obtain ⟨same, left⟩ := first s s' kin
  dsimp only at same left ⊢
  rw [act_bind, act_bind]
  generalize s.act a = ended at same left
  generalize s'.act a = ended' at same left
  obtain ⟨_, m⟩ := ended
  obtain ⟨result, m'⟩ := ended'
  obtain rfl := same
  cases result with
  | error why => exact ⟨rfl, left⟩
  | ok x =>
    obtain ⟨⟨_, told⟩, kept⟩ := tells x m
    obtain ⟨⟨_, told'⟩, kept'⟩ := tells x m'
    dsimp only
    rw [SameEnd, kept, kept', told, told']
    exact ⟨rfl, left⟩

/-- A use is remembered with the moment of its time. -/
theorem parallel_upsert (path : Path) (label? : Option String) :
    Parallel Twin SameEnd (·.act (change (·.upsert path label?))) := by
  rintro ⟨w, talk⟩ ⟨w', talk'⟩ twin
  obtain ⟨clock, rfl⟩ : ∃ clock, w' = { w with clock } := ⟨w'.clock, twin.place⟩
  dsimp only
  rw [act_change, act_change]
  refine ⟨?_, .inr ⟨w, path, label?, rfl, ?_⟩⟩
  · dsimp only
    rw [Workplace.upsert_fst, Workplace.upsert_fst]
    refine Store.save_fst_congr ?_ _
    rfl
  · dsimp only
    rw [Workplace.clock_upsert]

theorem heedless_forget (path : Path) : Heedless Twin (change (·.commit (.forget path))) := by
  rintro ⟨w, talk⟩ ⟨w', talk'⟩ twin
  obtain same : w' = { w with clock := w'.clock } := twin.place
  dsimp only
  rw [act_change, act_change]
  dsimp only
  rw [same, Workplace.commit_forget_clock]
  exact ⟨rfl, rfl, twin.respondent, twin.staged⟩

/-- Some registries are forgotten, and one is used. -/
theorem parallel_commits (gone : List Path) (path : Path) (label? : Option String) :
    Parallel Twin SameEnd (·.act ((gone.map Staged.forget ++ [Staged.remember path label?]).forM
      fun c => change (·.commit c))) := by
  have first_ : ∀ (c : Staged) (rest : List Staged),
      ((c :: rest).forM fun c => change (·.commit c)) =
        (change (·.commit c) >>= fun _ => rest.forM fun c => change (·.commit c)) := fun _ _ => rfl
  induction gone with
  | nil =>
    rw [List.map_nil, List.nil_append, first_]
    exact parallel_tells (parallel_upsert path label?) fun _ => onlyTells_pure ()
  | cons first rest ih =>
    rw [List.map_cons, List.cons_append, first_]
    exact (heedless_forget first).next (fun _ => ih) Twin.sameEnd

/-- The choice of a registry is committed with one use. -/
theorem parallel_commitChoice : Parallel Decided SameEnd (·.act commitChoice) := by
  rintro s s' ⟨twin, removed, moved?, path, staged⟩
  have commits : ∀ m : Session, m.act commitChoice =
      Session.act { m with talk := { m.talk with staged := [] } }
        (m.talk.staged.forM fun c => change (·.commit c)) := fun _ => rfl
  dsimp only
  rw [commits, commits, twin.staged, staged, Staged.ofChoice, ← Function.comp_def Staged.forget,
    ← List.map_map]
  exact parallel_commits _ path _ _ _ ⟨twin.place, twin.respondent, rfl⟩

/-- Helpers are added the same, and the choice of the registry is committed. -/
theorem parallel_addAndReport (registry : Path) (files : List Path) :
    Parallel Decided SameEnd (·.act (addAndReport registry files)) := by
  refine Heedless.next (.changeDisk kinship_decided fun _ _ => rfl) (fun report => ?_)
    fun kin => kin.toTwin.sameEnd
  refine parallel_tells parallel_commitChoice fun _ => onlyTells_place.bind fun w =>
    (onlyTells_forM fun _ => onlyTells_talk _).bind fun _ => ?_
  split <;> exact onlyTells_talk _

end Action

namespace Workflow

open Inquiry

/-- What is done once a registry is chosen decides. -/
theorem parallel_withRegistry {Plan : Type} {c : Plan → Action Unit} {given? : Option Path}
    {next : Path → Inquiry (Decision Plan)}
    (rest : ∀ path, Parallel Decided SameEnd (·.follow ⟨next path, c⟩)) :
    Parallel Twin SameEnd (·.follow ⟨withRegistry given? next, c⟩) := by
  intro s s' twin
  obtain ⟨same, left⟩ := twin_registry given? s s' twin
  dsimp only at same left ⊢
  rw [withRegistry, follow_bind, follow_bind]
  generalize chosen : s.inquire (registry given?) = ended at same left
  generalize s'.inquire (registry given?) = ended' at same left
  obtain ⟨_, m⟩ := ended
  obtain ⟨result, m'⟩ := ended'
  obtain rfl := same
  rcases result with why | _ | path
  · exact ⟨rfl, left.sameEnd⟩
  · exact parallel_cancel Twin.sameEnd m m' left
  · obtain ⟨_, removed, moved?, -, -, staged⟩ := of_inquire_registry chosen
    exact rest path m m' ⟨left, removed, moved?, path, staged⟩

/-- A registry that is planned is made the same, and remembered. -/
theorem parallel_planRegistry (options : NewRegistry) (w : Workplace) (label? : Option String)
    (folder : Path) (name : String) : Parallel Twin SameEnd (·.follow
      ⟨planRegistry w label? folder name, (newRegistry options).carryOut⟩) := by
  refine parallel_whole Twin.sameEnd (heedless_planRegistry kinship_twin _ _ _ _) fun plan => ?_
  refine Action.parallel_place kinship_twin (fun w => ?_) fun _ _ => rfl
  refine (Action.Heedless.atPath kinship_twin _ _ _).next (fun _ => ?_) Twin.sameEnd
  refine (Action.Heedless.atPath kinship_twin _ _ _).next (fun _ => ?_) Twin.sameEnd
  exact Action.parallel_tells (Action.parallel_upsert _ _) fun _ => Action.onlyTells_talk _

theorem parallel_newHelper_carryOut {R : Session → Session → Prop} (kinship : Kinship R)
    (weaker : ∀ {s s'}, R s s' → s.SameEnd s') (options : NewHelper) (plan : HelperPlan)
    (registers : ∀ registry, plan.registry? = some registry →
      Parallel R SameEnd (·.act (addAndReport registry [plan.path]))) :
    Parallel R SameEnd (·.act ((newHelper options).carryOut plan)) := by
  refine Action.parallel_place kinship (fun w => ?_) fun _ _ => rfl
  refine (Action.Heedless.atPath kinship _ _ _).next (fun _ => ?_) weaker
  refine (Action.Heedless.atPath kinship _ _ _).next (fun _ => ?_) weaker
  refine (Action.Heedless.say kinship _ _).next (fun _ => ?_) weaker
  cases into : plan.registry? with
  | none => exact fun _ _ kin => ⟨rfl, weaker kin⟩
  | some registry => exact registers registry into

/-- A helper that is planned is put into the same registry if it is to be. -/
theorem parallel_registerHelper (options : NewHelper) (into? : Option Path) (folder path : Path)
    (className : String) (register : Bool) : Parallel Twin SameEnd (·.follow
      ⟨registerHelper into? folder path className register, (newHelper options).carryOut⟩) := by
  rw [registerHelper]
  split
  · exact parallel_withRegistry fun path => parallel_carryOut <|
      parallel_newHelper_carryOut kinship_decided (fun kin => kin.toTwin.sameEnd) options _
        fun registry _ => Action.parallel_addAndReport _ _
  · exact parallel_carryOut <|
      parallel_newHelper_carryOut kinship_twin Twin.sameEnd options _ (by simp)

/-- Helpers are removed the same, with the same files, and the choice of the registry is committed. -/
theorem parallel_remove_carryOut (options : Removing) (plan : RemovingPlan) :
    Parallel Decided SameEnd (·.act ((remove options).carryOut plan)) := by
  have weaker : ∀ {s s' : Session}, s.Decided s' → s.SameEnd s' := fun kin => kin.toTwin.sameEnd
  refine Action.Heedless.next (.changeDisk kinship_decided fun _ _ => rfl) (fun report => ?_) weaker
  refine Action.Heedless.next (.forM fun _ => .atPath kinship_decided _ _ _) (fun _ => ?_) weaker
  refine Action.parallel_tells Action.parallel_commitChoice fun _ =>
    Action.onlyTells_place.bind fun w => (Action.onlyTells_forM fun _ => Action.onlyTells_talk _).bind
      fun _ => ?_
  have files : Action.OnlyTells (plan.files.forM fun file =>
      (liftM (Talk.say .success ("Deleted " ++ w.shown file)) : Action Unit)) :=
    Action.onlyTells_forM fun _ => Action.onlyTells_talk _
  split
  · exact (Action.onlyTells_talk _).bind fun _ => files
  · exact files

end Workflow
end Registrar
