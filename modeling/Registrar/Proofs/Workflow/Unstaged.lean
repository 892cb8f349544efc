import Registrar.CommandLine.Run
import Registrar.Proofs.Preferences.Committed
import Registrar.Proofs.Session.Kinship
import Registrar.Proofs.Session.Search

/-!
The two steps of a choice. What the choice of a registry changes is staged and nothing else; a commit
makes those changes. Between commands nothing staged counts: whatever choosing a registry stages has
replaced what was staged before, and the other commands do not look at it, so two sessions that differ
only in what is staged go on alike.
-/

namespace Registrar

/-! ### Overlooking what is staged -/

/-- The sessions differ at most in what is staged. -/
structure Session.Like (s s' : Session) : Prop where
  place : s'.place = s.place
  respondent : s'.talk.respondent = s.talk.respondent
  events : s'.talk.events = s.talk.events

/-- Sessions that are alike are answered alike, and left alike. -/
def Overlooks {α : Type} (run : Session → α × Session) : Prop :=
  ∀ s s' : Session, s.Like s' → (run s').1 = (run s).1 ∧ (run s).2.Like (run s').2

/-- What is made of a result changes nothing. -/
theorem Overlooks.map {α β : Type} {run : Session → α × Session} (overlooks : Overlooks run)
    (f : α → β) : Overlooks fun s => (f (run s).1, (run s).2) := fun s s' alike =>
  ⟨congrArg f (overlooks s s' alike).1, (overlooks s s' alike).2⟩

theorem Session.kinship_like : Kinship Session.Like where
  place kin := by rw [kin.place]
  respondent kin := kin.respondent
  hears kin _ := ⟨kin.place, rfl, kin.events⟩
  sees kin e := ⟨kin.place, kin.respondent, congrArg (· ++ [e]) kin.events⟩
  finds kin disk := ⟨by rw [kin.place], kin.respondent, kin.events⟩

namespace Inquiry

variable {α β : Type}

/-- The inquiry takes no notice of what is staged. -/
def Overlooking (i : Inquiry α) : Prop := Overlooks (·.inquire i)

theorem heedless_prints {R : Session → Session → Prop} (kinship : Kinship R) (lines : List Styled) :
    Heedless R (lines.forM fun line => (liftM (Talk.print line) : Inquiry Unit)) :=
  .forM fun _ => .record kinship _

/-- To choose a registry begins with nothing staged. -/
theorem inquire_registry_congr {s s' : Session} (alike : s.Like s') (given? : Option Path)
    (f : Option Path → Inquiry β) : s'.inquire (registry given? >>= f) = s.inquire (registry given? >>= f) := by
  obtain ⟨w, ⟨respondent, events, staged⟩⟩ := s
  obtain ⟨_, ⟨_, _, staged'⟩⟩ := s'
  obtain ⟨rfl, rfl, rfl⟩ := alike
  rw [registry, bind_assoc, inquire_modify_bind, inquire_modify_bind]

end Inquiry

namespace Action

theorem heedless_change {α : Type} (f : Workplace → Except Failure α × Workplace) :
    Heedless Session.Like (change f) := by
  intro s s' alike
  dsimp only
  rw [act_change, act_change, alike.place]
  exact ⟨rfl, rfl, alike.respondent, alike.events⟩

end Action

namespace Workflow

open Session Inquiry

variable {Plan : Type} {c : Plan → Action Unit}

/-- The workflow takes no notice of what is staged when it begins. -/
def Overlooking (w : Workflow Plan) : Prop := Overlooks (·.follow w)

/-- What choosing a registry stages has replaced what was staged before. -/
theorem Overlooking.withRegistry {given? : Option Path} {next : Path → Inquiry (Decision Plan)} :
    Overlooking ⟨withRegistry given? next, c⟩ := by
  intro s s' alike
  have same : s'.inquire (Inquiry.withRegistry given? next) =
      s.inquire (Inquiry.withRegistry given? next) := by
    rw [Inquiry.withRegistry]
    exact inquire_registry_congr alike given? _
  dsimp only
  rw [Session.follow, Session.follow, same]
  exact ⟨rfl, rfl, rfl, rfl⟩

/-! ### The commands -/

theorem overlooking_newRegistry (options : NewRegistry) : Overlooking (newRegistry options) := by
  refine parallel_whole id (heedless_newRegistry kinship_like options) fun plan => ?_
  refine Action.parallel_place kinship_like (fun w => ?_) fun _ _ => rfl
  exact (Action.Heedless.atPath kinship_like _ _ _).bind fun _ =>
    (Action.Heedless.atPath kinship_like _ _ _).bind fun _ =>
      (Action.heedless_change _).bind fun _ => .say kinship_like _ _

/-- A helper that is put into no registry is made without a commit. -/
theorem overlooking_newHelper (options : NewHelper) : Overlooking (newHelper options) := by
  refine parallel_newHelper id kinship_like options fun folder path className register => ?_
  rw [registerHelper]
  split
  · exact Overlooking.withRegistry
  · refine parallel_carryOut (Action.parallel_place kinship_like (fun w => ?_) fun _ _ => rfl)
    exact (Action.Heedless.atPath kinship_like _ _ _).bind fun _ =>
      (Action.Heedless.atPath kinship_like _ _ _).bind fun _ =>
        (Action.Heedless.say kinship_like _ _).bind fun _ => .pure ()

theorem overlooking_use (options : Using) : Overlooking (use options) := by
  refine parallel_read kinship_like (fun w => ?_) fun _ _ => by dsimp only
  extract_lets file finish
  split
  · exact parallel_bind id (.throw _) fun _ => Overlooking.withRegistry
  · exact Overlooking.withRegistry

theorem overlooking_memory (command : MemoryCommand) : Overlooking (memory command) := by
  refine parallel_whole id (.read kinship_like (fun w => ?_) fun _ _ => rfl) fun plan => ?_
  · cases command with
    | list => exact (heedless_prints kinship_like _).bind fun _ => .pure _
    | label given label =>
      dsimp only
      split
      · exact (Heedless.throw _).bind fun _ => .pure _
      · exact .pure _
    | forget given => exact .pure _
    | clear sure => exact .confirmed kinship_like _ _ _ _
    | sort order? =>
      cases order? with
      | some order => exact .pure _
      | none =>
        refine (Heedless.ask kinship_like).bind fun order? => ?_
        split <;> exact .pure _
  · have places : ∀ f : Workplace → Action Unit, (∀ w, Action.Heedless Like (f w)) →
        (∀ w clock, f { w with clock } = f w) → Action.Heedless Like (Action.place >>= f) :=
      fun f => Action.parallel_place kinship_like
    cases plan with
    | label path label =>
      exact (Action.heedless_change _).bind fun _ =>
        places _ (fun w => .say kinship_like _ _) fun _ _ => rfl
    | forget path =>
      refine places _ (fun w => (Action.heedless_change _).bind fun known => ?_) fun _ _ => rfl
      split <;> exact .say kinship_like _ _
    | clear => exact (Action.heedless_change _).bind fun _ => .say kinship_like _ _
    | sort order => exact (Action.heedless_change _).bind fun _ => .say kinship_like _ _

end Workflow

namespace Inquiry

open Session

theorem overlooking_scan : Overlooking scan :=
  Heedless.read kinship_like (fun _ => heedless_prints kinship_like _) fun _ _ => rfl

theorem overlooking_validate (json withSizes : Bool) : Overlooking (validate json withSizes) := by
  refine Heedless.read kinship_like (fun w => ?_) fun _ _ => by dsimp only; rfl
  cases w.validate w.store.preferences with
  | error why => exact .throw _
  | ok report => exact (heedless_prints kinship_like _).bind fun _ => .pure _

end Inquiry

/-! ### One command after another -/

namespace CommandLine

/-- Commands carried out in one session; each comes to its own end. -/
def performAll (s : Session) : List (Bool × Command) → List (Except Failure Outcome) × Session
  | [] => ([], s)
  | (verbose, command) :: rest =>
    let (result, s) := perform s verbose command
    let (results, s) := performAll s rest
    (result :: results, s)

theorem overlooks_perform (verbose : Bool) (command : Command) :
    Overlooks (perform · verbose command) := by
  cases command with
  | newRegistry options => exact Workflow.overlooking_newRegistry options
  | newHelper options => exact Workflow.overlooking_newHelper options
  | use options => exact Workflow.overlooking_use options
  | memory command => exact Workflow.overlooking_memory command
  | add _ | remove _ | delete _ | cleanUp _ => exact Workflow.Overlooking.withRegistry
  | scan =>
    have looks := Inquiry.overlooking_scan
    rw [Inquiry.Overlooking] at looks
    simpa only [perform] using looks.map (Except.map fun _ => Outcome.completed)
  | validate json strict =>
    have looks := Inquiry.overlooking_validate json verbose
    rw [Inquiry.Overlooking] at looks
    simpa only [perform] using looks.map (Except.bind · fun report =>
      if strict && report.hasErrors then .error (.invalid report.diagnostics.errors)
      else .ok Outcome.completed)

/-- What is staged when a row of commands begins is never made by any of them. -/
theorem overlooks_performAll (commands : List (Bool × Command)) :
    Overlooks (performAll · commands) := by
  induction commands with
  | nil => exact fun _ _ alike => ⟨rfl, alike⟩
  | cons first rest ih =>
    obtain ⟨verbose, command⟩ := first
    intro s s' alike
    obtain ⟨same, left⟩ := overlooks_perform verbose command s s' alike
    obtain ⟨others, last⟩ := ih _ _ left
    exact ⟨congrArg₂ List.cons same others, last⟩

end CommandLine
end Registrar
