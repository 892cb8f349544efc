import Registrar.CommandLine.Run

/-!
Questions come before changes. What carries a plan out asks nothing, so it never ends for want of an
answer; a workflow that is cancelled or left without an answer has ended in its inquiry, and the
workplace is as it was.
-/

namespace Registrar

/-- A result that is no missing or unfit answer. -/
def Unasked {α : Type} (e : Except Failure α) : Prop := ∀ why, e ≠ .error (.answer why)

namespace Unasked

variable {α β : Type}

theorem ok (a : α) : Unasked (.ok a) := by
  intro why
  simp

theorem map {e : Except Failure α} (h : Unasked e) (f : α → β) : Unasked (e.map f) := by
  intro why ended
  cases e with
  | ok a => simp [Except.map] at ended
  | error why' => exact h why (by simpa [Except.map] using ended)

theorem bind {e : Except Failure α} (h : Unasked e) {f : α → Except Failure β}
    (rest : ∀ a, Unasked (f a)) : Unasked (e >>= f) := by
  cases e with
  | ok a => exact rest a
  | error why' =>
    intro why ended
    exact h why (congrArg Except.error (by simpa [Bind.bind, Except.bind] using ended))

/-- What goes wrong with a file is no question. -/
theorem file (deed : Deed) (path : Path) (e : Except FileError α) :
    Unasked (e.mapError (Failure.file deed path)) := by
  intro why ended
  cases e with
  | ok a => cases ended
  | error why' => cases ended

end Unasked

namespace Action

variable {α β : Type}

/-- An action that never ends for want of an answer. -/
def Quiet (a : Action α) : Prop := ∀ s : Session, Unasked (s.act a).1

theorem Quiet.pure (a : α) : Quiet (pure a) := fun _ => .ok a

/-- What comes second is done where the first has succeeded. -/
theorem act_bind (s : Session) (a : Action α) (f : α → Action β) :
    s.act (a >>= f) =
      match s.act a with
      | (.ok x, s') => s'.act (f x)
      | (.error why, s') => (.error why, s') := by
  have step : s.act (a >>= f) = ExceptT.bindCont (m := StateM Session) f (s.act a).1 (s.act a).2 := rfl
  rw [step]
  rcases s.act a with ⟨result, s'⟩
  cases result <;> rfl

theorem Quiet.bind {a : Action α} {f : α → Action β} (first : Quiet a) (rest : ∀ x, Quiet (f x)) :
    Quiet (a >>= f) := by
  intro s why
  rw [act_bind]
  have here := first s
  generalize s.act a = ended at here
  rcases ended with ⟨x | why', s'⟩
  · exact fun ended => here why (congrArg Except.error (Except.error.inj ended))
  · exact rest _ s' why

/-- What is said fails nowhere. -/
theorem Quiet.talk (m : StateM Talk α) : Quiet (liftM m : Action α) := fun _ => .ok _

theorem Quiet.place : Quiet place := fun _ => .ok _

theorem Quiet.forM {l : List β} {f : β → Action Unit} (each : ∀ b ∈ l, Quiet (f b)) :
    Quiet (l.forM f) := by
  induction l with
  | nil => exact .pure ()
  | cons b rest ih =>
    show Quiet (f b >>= fun _ => rest.forM f)
    exact (each b (by simp)).bind fun _ => ih fun b member => each b (by simp [member])

theorem Quiet.get : Quiet get := fun _ => .ok _

theorem Quiet.set (s : Session) : Quiet (set s) := fun _ => .ok _

theorem Quiet.ofExcept {e : Except Failure α} (h : Unasked e) : Quiet (ofExcept e) := by
  intro s
  cases e with
  | ok a => exact .ok a
  | error why => exact h

/-- A change is quiet if what it does fails for no answer. -/
theorem Quiet.change {f : Workplace → Except Failure α × Workplace} (h : ∀ w, Unasked (f w).1) :
    Quiet (change f) := by
  refine Quiet.get.bind fun s => ?_
  exact (Quiet.set _).bind fun _ => .ofExcept (h s.place)

theorem Quiet.changeDisk {f : Workplace → Except Failure (α × Disk)} (h : ∀ w, Unasked (f w)) :
    Quiet (changeDisk f) := by
  refine Quiet.get.bind fun s => ?_
  refine (Quiet.ofExcept (h s.place)).bind fun _ => ?_
  exact (Quiet.set _).bind fun _ => .pure _

theorem Quiet.atPath (deed : Deed) (path : Path) (f : Disk → Except FileError Disk) :
    Quiet (atPath deed path f) := .changeDisk fun _ => (Unasked.file deed path _).map _

end Action

/-! ### Changes of the workplace -/

namespace Workplace

variable (w : Workplace)

theorem unasked_save (s : Store) (d : Disk) : Unasked (s.save d).1 := by
  intro why
  rw [Store.save]
  split
  · simp
  · dsimp only
    split
    · simp
    · split <;> simp

theorem unasked_remember (change : Preferences → Preferences) : Unasked (w.remember change).1 :=
  unasked_save _ _

theorem unasked_forget (path : Path) : Unasked (w.forget path).1 := by
  rw [forget]
  split
  · exact (w.unasked_remember _).map _
  · exact .ok false

theorem unasked_commit (change : Staged) : Unasked (w.commit change).1 := by
  cases change with
  | forget path => exact (w.unasked_forget path).map _
  | remember path label? => exact w.unasked_remember (·.upsert w.clock path label?)

end Workplace

namespace Workspace

variable (w : Workspace)

theorem unasked_read (file : Path) : Unasked (w.read file) :=
  .file .read file _

theorem unasked_writeChange (registry : Path) (new? : Option Text) :
    Unasked (w.writeChange registry new?) := by
  cases new? with
  | none => exact .ok _
  | some text => exact .file .write registry _

theorem unasked_add (registry : Path) (files : List Path) : Unasked (w.add registry files) := by
  refine (w.unasked_read registry).bind fun text => ?_
  exact (w.unasked_writeChange registry _).bind fun _ => .ok _

theorem unasked_remove (registry : Path) (classes : List String) :
    Unasked (w.remove registry classes) := by
  refine (w.unasked_read registry).bind fun text => ?_
  exact (w.unasked_writeChange registry _).bind fun _ => .ok _

theorem unasked_use (file : Path) (line : Nat) (registry : Path) (accessor className : String) :
    Unasked (w.use file line registry accessor className) := by
  refine (w.unasked_read file).bind fun text => ?_
  exact .file .write file _

end Workspace
/-! ### Workflows -/

open Action

theorem quiet_commitChoice : Quiet commitChoice := by
  refine Quiet.get.bind fun s => ?_
  refine (Quiet.set _).bind fun _ => ?_
  exact .forM fun change _ => .change fun w => w.unasked_commit change

theorem quiet_addAndReport (registry : Path) (files : List Path) :
    Quiet (addAndReport registry files) := by
  refine (Quiet.changeDisk fun w => w.unasked_add registry files).bind fun report => ?_
  refine quiet_commitChoice.bind fun _ => ?_
  refine Quiet.place.bind fun w => ?_
  refine (Quiet.forM fun _ _ => .talk _).bind fun _ => ?_
  split <;> exact .talk _

namespace Workflow

theorem quiet_add (options : Adding) (plan : AddingPlan) : Quiet ((add options).carryOut plan) :=
  quiet_addAndReport plan.registry plan.files

theorem quiet_remove (options : Removing) (plan : RemovingPlan) :
    Quiet ((remove options).carryOut plan) := by
  refine (Quiet.changeDisk fun w => w.unasked_remove plan.registry plan.classes).bind
    fun report => ?_
  refine (Quiet.forM fun file _ => .atPath .delete file _).bind fun _ => ?_
  refine quiet_commitChoice.bind fun _ => ?_
  refine Quiet.place.bind fun w => ?_
  refine (Quiet.forM fun _ _ => .talk _).bind fun _ => ?_
  split
  · exact (Quiet.talk _).bind fun _ => .forM fun _ _ => .talk _
  · exact .forM fun _ _ => .talk _

theorem quiet_cleanUp (options : Discarding) (plan : CleanupPlan) :
    Quiet ((cleanUp options).carryOut plan) := by
  show Quiet (if plan.classes.isEmpty then _ else _)
  split
  · exact quiet_commitChoice.bind fun _ => .talk _
  · refine (Quiet.changeDisk fun w => w.unasked_remove plan.registry plan.classes).bind
      fun report => ?_
    exact quiet_commitChoice.bind fun _ => .talk _

theorem quiet_delete (options : Discarding) (registry : Path) :
    Quiet ((delete options).carryOut registry) := by
  refine (Quiet.atPath .delete registry _).bind fun _ => ?_
  refine quiet_commitChoice.bind fun _ => ?_
  refine Quiet.bind ?_ fun _ => Quiet.place.bind fun w => .talk _
  exact (Quiet.change fun w => w.unasked_forget registry).bind fun _ => .pure ()

theorem quiet_newRegistry (options : NewRegistry) (plan : RegistryPlan) :
    Quiet ((newRegistry options).carryOut plan) := by
  refine Quiet.place.bind fun w => ?_
  refine (Quiet.atPath .create plan.folder _).bind fun _ => ?_
  refine (Quiet.atPath .write plan.path _).bind fun _ => ?_
  refine (Quiet.change fun w => w.unasked_remember _).bind fun _ => ?_
  exact .talk _

theorem quiet_newHelper (options : NewHelper) (plan : HelperPlan) :
    Quiet ((newHelper options).carryOut plan) := by
  refine Quiet.place.bind fun w => ?_
  refine (Quiet.atPath .create plan.folder _).bind fun _ => ?_
  refine (Quiet.atPath .write plan.path _).bind fun _ => ?_
  refine (Quiet.talk _).bind fun _ => ?_
  split
  · exact .pure ()
  · exact quiet_addAndReport _ _

theorem quiet_use (options : Using) (plan : UsePlan) : Quiet ((use options).carryOut plan) := by
  refine (Quiet.changeDisk fun w => (w.unasked_use _ _ _ _ _).map _).bind fun _ => ?_
  refine quiet_commitChoice.bind fun _ => ?_
  exact Quiet.place.bind fun w => .talk _

theorem quiet_memory (command : MemoryCommand) (plan : MemoryPlan) :
    Quiet ((memory command).carryOut plan) := by
  cases plan with
  | label path label =>
    refine (Quiet.change fun w => w.unasked_remember _).bind fun _ => ?_
    exact Quiet.place.bind fun w => .talk _
  | forget path =>
    refine Quiet.place.bind fun w => ?_
    refine (Quiet.change fun w => w.unasked_forget path).bind fun known => ?_
    split <;> exact .talk _
  | clear =>
    refine (Quiet.change fun w => w.unasked_remember _).bind fun _ => ?_
    exact .talk _
  | sort order =>
    refine (Quiet.change fun w => w.unasked_remember _).bind fun _ => ?_
    exact .talk _

end Workflow

/-! ### What a run without an answer leaves -/

/-- A workflow that is cancelled or left without an answer has changed nothing. -/
theorem Session.follow_place {Plan : Type} (s : Session) {w : Workflow Plan}
    (quiet : ∀ plan, Quiet (w.carryOut plan))
    (ended : (s.follow w).1 = .ok .cancelled ∨ ∃ why, (s.follow w).1 = .error (.answer why)) :
    (s.follow w).2.place = s.place := by
  have asked := s.inquire_place w.inquire
  rw [follow] at ended ⊢
  generalize s.inquire w.inquire = inquired at asked ended ⊢
  rcases inquired with ⟨why | decision, s'⟩
  · exact asked
  · cases decision with
    | cancel => exact asked
    | rest => exact asked
    | carryOut plan =>
      -- From here on nothing is asked, so neither ending is possible.
      have answered := quiet plan s'
      dsimp only at ended ⊢
      generalize s'.act (w.carryOut plan) = acted at answered ended
      rcases acted with ⟨why | _, s''⟩
      · rcases ended with cancelled | ⟨why', unanswered⟩
        · simp at cancelled
        · exact absurd (congrArg Except.error (Except.error.inj unanswered)) (answered why')
      · simp at ended

namespace CommandLine

/-- A command that is cancelled or left without an answer has changed neither files nor what is
remembered. -/
theorem perform_place_unchanged (s : Session) (verbose : Bool) (command : Command)
    (ended : (perform s verbose command).1 = .ok .cancelled ∨
      ∃ why, (perform s verbose command).1 = .error (.answer why)) :
    (perform s verbose command).2.place = s.place := by
  cases command with
  | newRegistry options =>
    rw [perform] at ended ⊢
    exact s.follow_place (Workflow.quiet_newRegistry options) ended
  | add options =>
    rw [perform] at ended ⊢
    exact s.follow_place (Workflow.quiet_add options) ended
  | newHelper options =>
    rw [perform] at ended ⊢
    exact s.follow_place (Workflow.quiet_newHelper options) ended
  | use options =>
    rw [perform] at ended ⊢
    exact s.follow_place (Workflow.quiet_use options) ended
  | remove options =>
    rw [perform] at ended ⊢
    exact s.follow_place (Workflow.quiet_remove options) ended
  | delete options =>
    rw [perform] at ended ⊢
    exact s.follow_place (Workflow.quiet_delete options) ended
  | cleanUp options =>
    rw [perform] at ended ⊢
    exact s.follow_place (Workflow.quiet_cleanUp options) ended
  | memory command =>
    rw [perform] at ended ⊢
    exact s.follow_place (Workflow.quiet_memory command) ended
  | scan =>
    have asked := s.inquire_place Inquiry.scan
    clear ended
    rw [perform]
    generalize s.inquire Inquiry.scan = inquired at asked ⊢
    exact asked
  | validate json strict =>
    have asked := s.inquire_place (Inquiry.validate json verbose)
    clear ended
    rw [perform]
    generalize s.inquire (Inquiry.validate json verbose) = inquired at asked ⊢
    exact asked

/-- A folder and an unfit name are given, and the question for a better name is dismissed. -/
theorem perform_place_unchanged_dismissed :
    let script := [.folder (some ⟨"pages"⟩), .text (some "site"), .text none]
    let s : Session := ⟨⟨⟨{}, ⟨"/w"⟩, {}⟩, {}, 0⟩, { respondent := .script script }⟩
    (perform s false (.newRegistry {})).1 = .ok .cancelled ∧
      (perform s false (.newRegistry {})).2.place = s.place := by
  intro script s
  have dismissed : (perform s false (.newRegistry {})).1.toOption = some .cancelled := by
    decide +kernel
  have cancelled : (perform s false (.newRegistry {})).1 = .ok .cancelled := by
    generalize (perform s false (.newRegistry {})).1 = result at dismissed ⊢
    cases result with
    | error why => simp [Except.toOption] at dismissed
    | ok outcome => rw [Option.some.inj dismissed]
  exact ⟨cancelled, perform_place_unchanged s false (.newRegistry {}) (.inl cancelled)⟩

end CommandLine
end Registrar
