import Registrar.Proofs.Disk.Change
import Registrar.Proofs.Workflow.Quiet

/-!
What is saved of a choice. Committing a choice of a registry writes the preferences at their own
place; it fails only where they cannot be written, and leaves all other files as they are.
-/

namespace Registrar

namespace Workplace

variable {w w' w'' : Workplace}

/-- The second workplace is the first after preferences have been written, if anything. -/
structure Saves (w w' : Workplace) : Prop where
  root : w'.root = w.root
  config : w'.config = w.config
  file : w'.store.file? = w.store.file?
  agrees : Disk.Agrees (w'.store.IsPlace w'.disk) w.disk w'.disk

theorem Saves.refl (w : Workplace) : Saves w w := ⟨rfl, rfl, rfl, .refl _ _⟩

theorem Saves.trans (first : Saves w w') (second : Saves w' w'') : Saves w w'' where
  root := second.root.trans first.root
  config := second.config.trans first.config
  file := second.file.trans first.file
  agrees := by
    refine (first.agrees.mono fun ns place => ?_).trans second.agrees
    obtain ⟨file, kept, led⟩ := place
    exact ⟨file, second.file.trans kept, second.agrees.locate led⟩

theorem saves_remember (w : Workplace) (change : Preferences → Preferences) :
    Saves w (w.remember change).2 ∧
      ∀ why, (w.remember change).1 = .error why → w.store.CannotSave why := by
  obtain ⟨agrees, fails⟩ :=
    Store.agrees_save { w.store with preferences := change w.store.preferences } w.disk
  exact ⟨⟨rfl, rfl, rfl, agrees⟩, fails⟩

theorem saves_forget (w : Workplace) (path : Path) : Saves w (w.forget path).2 ∧
    ∀ why, (w.forget path).1 = .error why → w.store.CannotSave why := by
  obtain ⟨saves, fails⟩ := w.saves_remember (·.remove path)
  rw [forget]
  split
  · generalize w.remember (·.remove path) = result at saves fails
    rcases result with ⟨why | _, w'⟩
    · refine ⟨saves, ?_⟩
      rintro _ ⟨⟩
      exact fails why rfl
    · exact ⟨saves, by simp [Except.map]⟩
  · exact ⟨.refl w, by simp⟩

theorem saves_commit (w : Workplace) (change : Staged) : Saves w (w.commit change).2 ∧
    ∀ why, (w.commit change).1 = .error why → w.store.CannotSave why := by
  cases change with
  | forget path =>
    obtain ⟨saves, fails⟩ := w.saves_forget path
    rw [commit]
    generalize w.forget path = result at saves fails
    rcases result with ⟨why | _, w'⟩
    · refine ⟨saves, ?_⟩
      rintro _ ⟨⟩
      exact fails why rfl
    · exact ⟨saves, by simp [Except.map]⟩
  | remember path label? => exact w.saves_remember (·.upsert w.clock path label?)

end Workplace

namespace Action

variable {α β : Type}

theorem act_change (s : Session) (f : Workplace → Except Failure α × Workplace) :
    s.act (change f) = ((f s.place).1, { s with place := (f s.place).2 }) := by
  have step : s.act (change f) = ({ s with place := (f s.place).2 } : Session).act
      (ofExcept (f s.place).1) := rfl
  rw [step]
  cases (f s.place).1 <;> rfl

theorem act_forM_nil (s : Session) (f : β → Action Unit) : s.act ([].forM f) = (.ok (), s) := rfl

theorem act_forM_cons (s : Session) (f : β → Action Unit) (b : β) (rest : List β) :
    s.act ((b :: rest).forM f) = s.act (f b >>= fun _ => rest.forM f) := rfl

/-- What committing a choice changes, and why it may fail. -/
theorem act_commitChoice (s : Session) : s.place.Saves (s.act commitChoice).2.place ∧
    ∀ why, (s.act commitChoice).1 = .error why → s.place.store.CannotSave why := by
  have each : ∀ (changes : List Staged) (s : Session),
      s.place.Saves (s.act (changes.forM fun c => change (·.commit c))).2.place ∧
        ∀ why, (s.act (changes.forM fun c => change (·.commit c))).1 = .error why →
          s.place.store.CannotSave why := by
    intro changes
    induction changes with
    | nil =>
      refine fun s => ⟨.refl _, fun why failed => ?_⟩
      rw [act_forM_nil] at failed
      cases failed
    | cons c rest ih =>
      intro s
      obtain ⟨saves, fails⟩ := s.place.saves_commit c
      rw [act_forM_cons, act_bind, act_change]
      generalize s.place.commit c = result at saves fails
      rcases result with ⟨why | _, w⟩
      · exact ⟨saves, fails⟩
      · obtain ⟨saves', fails'⟩ := ih { s with place := w }
        refine ⟨saves.trans saves', fun why failed => ?_⟩
        obtain ⟨file, kept, what⟩ := fails' why failed
        exact ⟨file, saves.file ▸ kept, what⟩
  exact each s.talk.staged { s with talk := { s.talk with staged := [] } }

/-- An action that changes nothing of the workplace and does not fail. -/
def OnlyTells (a : Action α) : Prop :=
  ∀ s : Session, (∃ x, (s.act a).1 = .ok x) ∧ (s.act a).2.place = s.place

theorem onlyTells_pure (a : α) : OnlyTells (pure a) := fun _ => ⟨⟨a, rfl⟩, rfl⟩

theorem onlyTells_talk (m : StateM Talk α) : OnlyTells (liftM m : Action α) := fun _ => ⟨⟨_, rfl⟩, rfl⟩

theorem onlyTells_place : OnlyTells place := fun s => ⟨⟨s.place, rfl⟩, rfl⟩

theorem OnlyTells.bind {a : Action α} {f : α → Action β} (first : OnlyTells a)
    (rest : ∀ x, OnlyTells (f x)) : OnlyTells (a >>= f) := by
  intro s
  obtain ⟨⟨x, ended⟩, same⟩ := first s
  rw [act_bind]
  generalize s.act a = result at ended same
  rcases result with ⟨_, s'⟩
  obtain rfl := ended
  rw [← same]
  exact rest x s'

theorem onlyTells_forM {l : List β} {f : β → Action Unit} (each : ∀ b, OnlyTells (f b)) :
    OnlyTells (l.forM f) := by
  induction l with
  | nil => exact onlyTells_pure ()
  | cons b rest ih => exact (each b).bind fun _ => ih

end Action
end Registrar
