import Registrar.Proofs.Workflow.Saving

/-!
How a removal is carried out. The registry is edited first, then the helpers' files are deleted one
after another. Where the files are there, at places of their own, the deletion goes through, so a
removal fails before it changes anything, or when preferences are saved at its end.
-/

namespace Registrar

open Disk

/-! ### Carrying out -/

namespace Action

theorem act_changeDisk_error {α : Type} {s : Session} {f : Workplace → Except Failure (α × Disk)}
    {why : Failure} (failed : f s.place = .error why) :
    s.act (changeDisk f) = (.error why, s) := by
  have step : s.act (changeDisk f) = s.act (ofExcept (f s.place) >>= fun r =>
      (do set { s with place := { s.place with disk := r.2 } }; return r.1)) := rfl
  rw [step, failed]
  rfl

theorem act_changeDisk_ok {α : Type} {s : Session} {f : Workplace → Except Failure (α × Disk)}
    {a : α} {disk : Disk} (done : f s.place = .ok (a, disk)) :
    s.act (changeDisk f) = (.ok a, { s with place := { s.place with disk } }) := by
  have step : s.act (changeDisk f) = s.act (ofExcept (f s.place) >>= fun r =>
      (do set { s with place := { s.place with disk := r.2 } }; return r.1)) := rfl
  rw [step, done]
  rfl

/-- Files that are there, at different places, are deleted one after another. -/
theorem act_deletes (files : List Path) : ∀ s : Session, s.place.disk.top.Sound →
    (∀ file ∈ files, s.place.disk.isFile file = true) →
    files.Pairwise (fun p q => ¬s.place.disk.Meet p q) →
    ∃ d', s.act (files.forM fun file => atPath .delete file (·.remove file)) =
        (.ok (), { s with place := { s.place with disk := d' } }) ∧
      Agrees (fun ns => ∃ file ∈ files, s.place.disk.locate file = .ok ns) s.place.disk d' ∧
      ∀ file ∈ files, ∀ ns, s.place.disk.locate file = .ok ns →
        ∀ f, d'.top.shape ns ≠ some (some f) := by
  induction files with
  | nil => exact fun s _ _ _ => ⟨s.place.disk, act_forM_nil s _, .refl _ _, by simp⟩
  | cons file rest ih =>
    intro s sound there separate
    obtain ⟨apart, separate⟩ := List.pairwise_cons.mp separate
    obtain ⟨names, f, led, here⟩ := isFile_iff.mp (there file (by simp))
    obtain ⟨d₁, removed, alters⟩ := exists_of_isFile sound led here
    have grows := alters.grows
    -- The other files stand elsewhere, so they are still there.
    have others : ∀ other ∈ rest, ∃ ns g, s.place.disk.locate other = .ok ns ∧ ns ≠ names ∧
        s.place.disk.top.shape ns = some (some g) := by
      intro other member
      obtain ⟨ns, g, led', here'⟩ := isFile_iff.mp (there other (by simp [member]))
      refine ⟨ns, g, led', ?_, here'⟩
      rintro rfl
      exact apart other member ⟨ns, led, led'⟩
    have back : ∀ other ∈ rest, ∀ ns, d₁.locate other = .ok ns →
        s.place.disk.locate other = .ok ns := by
      intro other member ns led'
      obtain ⟨ns', g, led'', _⟩ := others other member
      rwa [Except.ok.inj (led'.symm.trans (grows.locate led''))]
    have deleted : s.act (atPath .delete file (·.remove file)) =
        (.ok (), { s with place := { s.place with disk := d₁ } }) := by
      refine act_changeDisk_ok ?_
      dsimp only
      rw [removed]
      rfl
    obtain ⟨d₂, rest_deleted, agrees, gone⟩ := ih { s with place := { s.place with disk := d₁ } }
      (alters.sound sound)
      (fun other member => by
        obtain ⟨ns, g, led', apart', here'⟩ := others other member
        exact isFile_iff.mpr ⟨ns, g, grows.locate led', by rw [alters.shape, if_neg apart', here']⟩)
      (separate.imp_of_mem fun {p q} first second apart' meet => by
        obtain ⟨ns, led', led''⟩ := meet
        exact apart' ⟨ns, back p first ns led', back q second ns led''⟩)
    refine ⟨d₂, ?_, ?_, ?_⟩
    · rw [act_forM_cons, act_bind, deleted]
      exact rest_deleted
    · refine (alters.agrees.mono ?_).trans (agrees.mono ?_)
      · rintro _ rfl
        exact ⟨file, by simp, led⟩
      · rintro ns ⟨other, member, led'⟩
        exact ⟨other, by simp [member], back other member ns led'⟩
    · intro other member ns led'
      rcases List.mem_cons.mp member with rfl | member
      · obtain rfl : names = ns := Except.ok.inj (led.symm.trans led')
        have kept : ¬∃ other ∈ rest, d₁.locate other = .ok names := by
          rintro ⟨other', member', led''⟩
          exact apart other' member' ⟨names, led, back other' member' names led''⟩
        intro f there'
        have := (agrees.files names kept f).mp there'
        simp [alters.shape] at this
      · exact gone other member ns (grows.locate led')

end Action

/-- The edited text of the registry. -/
def RemovingPlan.edited (plan : RemovingPlan) (w : Workspace) (t : Text) : Text :=
  (Removal.remove w.config t plan.classes).2.getD t

/-- A plan has been carried out: the registry has its new text, the files are gone, and preferences
may have been saved; all other files are as they were. -/
structure RemovingPlan.CarriedOut (plan : RemovingPlan) (edited : Text) (w w' : Workplace) :
    Prop where
  root : w'.root = w.root
  config : w'.config = w.config
  agrees : Agrees (fun ns => w.disk.locate plan.registry = .ok ns ∨
    (∃ file ∈ plan.files, w.disk.locate file = .ok ns) ∨ w'.store.IsPlace w'.disk ns) w.disk w'.disk
  written : ∀ ns, w.disk.locate plan.registry = .ok ns → ¬w'.store.IsPlace w'.disk ns →
    ∃ moment, w'.disk.top.shape ns = some (some ⟨.text edited, moment⟩)
  gone : ∀ file ∈ plan.files, ∀ ns, w.disk.locate file = .ok ns → ¬w'.store.IsPlace w'.disk ns →
    ∀ f, w'.disk.top.shape ns ≠ some (some f)

/-- The edit of a registry fails, or writes the edited text and changes no other file. -/
theorem Workspace.exists_of_remove {w : Workspace} {registry : Path} {classes : List String}
    {report : RemovalReport} {d : Disk} {t : Text} (read : w.disk.readText registry = .ok t)
    (removed : w.remove registry classes = .ok (report, d)) : ∃ ns moment,
      w.disk.locate registry = .ok ns ∧ Agrees (· = ns) w.disk d ∧ d.top.shape ns =
        some (some ⟨.text ((Removal.remove w.config t classes).2.getD t), moment⟩) := by
  obtain ⟨ns, moment, led, there⟩ := readText_eq_ok_iff.mp read
  have step : w.remove registry classes = (w.writeChange registry
      (Removal.remove w.config t classes).2).map fun d =>
        ((Removal.remove w.config t classes).1, d) := by
    rw [Workspace.remove, Workspace.read, read]
    simp only [Except.mapError, bind, Except.bind]
    cases w.writeChange registry (Removal.remove w.config t classes).2 <;> rfl
  rw [step] at removed
  cases new : (Removal.remove w.config t classes).2 with
  | none =>
    rw [new] at removed
    obtain ⟨-, rfl⟩ := Prod.mk.inj (Except.ok.inj removed)
    exact ⟨ns, moment, led, .refl _ _, there⟩
  | some text =>
    rw [new] at removed
    cases written : w.disk.write registry text with
    | error why =>
      simp [Workspace.writeChange, Workspace.write, written, Except.mapError, Except.map] at removed
    | ok d' =>
      simp only [Workspace.writeChange, Workspace.write, written, Except.mapError, Except.map,
        Except.ok.injEq, Prod.mk.injEq] at removed
      obtain ⟨-, rfl⟩ := removed
      have alters := alters_of_write written led
      exact ⟨ns, w.disk.now, led, alters.agrees, by simp [alters.shape]⟩

namespace Workflow

/-- Carrying out a removal is to edit the registry, to delete the files, to commit the choice, and to
say what has been done. -/
theorem exists_carryOut_remove (options : Removing) (plan : RemovingPlan) :
    ∃ tells : RemovalReport → Action Unit, (remove options).carryOut plan =
        (Action.changeDisk (fun w => w.remove plan.registry plan.classes) >>= fun report =>
          plan.files.forM (fun file => Action.atPath .delete file (·.remove file)) >>= fun _ =>
            Action.commitChoice >>= fun _ => tells report) ∧ ∀ report, (tells report).OnlyTells := by
  refine ⟨_, rfl, fun report => ?_⟩
  refine Action.onlyTells_place.bind fun w => ?_
  refine (Action.onlyTells_forM fun name => Action.onlyTells_talk _).bind fun _ => ?_
  split
  · refine (Action.onlyTells_talk _).bind fun _ => ?_
    exact Action.onlyTells_forM fun file => Action.onlyTells_talk _
  · exact Action.onlyTells_forM fun file => Action.onlyTells_talk _

/-- An edit of the registry, deletions of files elsewhere and a save of preferences, one after another,
carry a plan out. -/
theorem carriedOut_of_steps {plan : RemovingPlan} {edited : Text} {w w' : Workplace} {d₁ d₂ : Disk}
    {here : List String} {moment : Nat} (led : w.disk.locate plan.registry = .ok here)
    (others : ∀ file ∈ plan.files, ∃ ns, w.disk.locate file = .ok ns ∧ ns ≠ here)
    (edits : Agrees (· = here) w.disk d₁)
    (written : d₁.top.shape here = some (some ⟨.text edited, moment⟩))
    (deletes : Agrees (fun ns => ∃ file ∈ plan.files, d₁.locate file = .ok ns) d₁ d₂)
    (gone : ∀ file ∈ plan.files, ∀ ns, d₁.locate file = .ok ns →
      ∀ f, d₂.top.shape ns ≠ some (some f))
    (saves : Workplace.Saves { w with disk := d₂ } w') : plan.CarriedOut edited w w' := by
  have back : ∀ file ∈ plan.files, ∀ ns, d₁.locate file = .ok ns →
      w.disk.locate file = .ok ns ∧ ns ≠ here := by
    intro file member ns led'
    obtain ⟨ns', led'', other⟩ := others file member
    obtain rfl := Except.ok.inj (led'.symm.trans (edits.locate led''))
    exact ⟨led'', other⟩
  refine { root := saves.root, config := saves.config, agrees := ?_, written := ?_, gone := ?_ }
  · refine (edits.mono ?_).trans ((deletes.mono ?_).trans (saves.agrees.mono ?_))
    · rintro _ rfl
      exact .inl led
    · rintro ns ⟨file, member, led'⟩
      exact .inr (.inl ⟨file, member, (back file member ns led').1⟩)
    · exact fun ns place => .inr (.inr place)
  · intro ns led' kept
    obtain rfl : here = ns := Except.ok.inj (led.symm.trans led')
    have spared : ¬∃ file ∈ plan.files, d₁.locate file = .ok here := by
      rintro ⟨file, member, led''⟩
      exact (back file member here led'').2 rfl
    exact ⟨moment, (saves.agrees.files here kept _).mpr ((deletes.files here spared _).mpr written)⟩
  · intro file member ns led' kept f there'
    exact gone file member ns (edits.locate led') f ((saves.agrees.files ns kept f).mp there')

/-- Carrying out a removal with files that are there, each at a place of its own, either fails before
anything is changed, or does all of it and can fail only at saving preferences. -/
theorem act_remove (options : Removing) {plan : RemovingPlan} {s : Session} {t : Text}
    (sound : s.place.disk.top.Sound) (read : s.place.disk.readText plan.registry = .ok t)
    (there : ∀ file ∈ plan.files, s.place.disk.isFile file = true)
    (separate : plan.files.Pairwise fun p q => ¬s.place.disk.Meet p q)
    (outside : ∀ file ∈ plan.files, ¬s.place.disk.Meet file plan.registry) :
    ((∃ why, (s.act ((remove options).carryOut plan)).1 = .error why) ∧
        (s.act ((remove options).carryOut plan)).2.place = s.place) ∨
      (plan.CarriedOut (plan.edited s.place.toWorkspace t) s.place
          (s.act ((remove options).carryOut plan)).2.place ∧
        ∀ why, (s.act ((remove options).carryOut plan)).1 = .error why →
          s.place.store.CannotSave why) := by
  obtain ⟨tells, steps, only⟩ := exists_carryOut_remove options plan
  rw [steps, Action.act_bind]
  cases removed : s.place.remove plan.registry plan.classes with
  | error why =>
    rw [Action.act_changeDisk_error removed]
    exact .inl ⟨⟨why, rfl⟩, rfl⟩
  | ok done =>
    obtain ⟨report, d₁⟩ := done
    obtain ⟨here, moment, led, edits, written⟩ := Workspace.exists_of_remove read removed
    rw [Action.act_changeDisk_ok removed]
    dsimp only
    -- The files stand elsewhere, so the edit leaves them where they are.
    have others : ∀ file ∈ plan.files, ∃ ns f, s.place.disk.locate file = .ok ns ∧ ns ≠ here ∧
        d₁.top.shape ns = some (some f) := by
      intro file member
      obtain ⟨ns, f, led', there'⟩ := isFile_iff.mp (there file member)
      have other : ns ≠ here := by
        rintro rfl
        exact outside file member ⟨ns, led', led⟩
      exact ⟨ns, f, led', other, (edits.files ns other f).mpr there'⟩
    have back : ∀ file ∈ plan.files, ∀ ns, d₁.locate file = .ok ns →
        s.place.disk.locate file = .ok ns := by
      intro file member ns led'
      obtain ⟨ns', f, led'', _⟩ := others file member
      rwa [Except.ok.inj (led'.symm.trans (edits.locate led''))]
    obtain ⟨d₂, deleted, deletes, gone⟩ := Action.act_deletes plan.files
      { s with place := { s.place with disk := d₁ } } (edits.sound sound)
      (fun file member => by
        obtain ⟨ns, f, led', _, there'⟩ := others file member
        exact isFile_iff.mpr ⟨ns, f, edits.locate led', there'⟩)
      (separate.imp_of_mem fun {p q} first second apart meet => by
        obtain ⟨ns, led', led''⟩ := meet
        exact apart ⟨ns, back p first ns led', back q second ns led''⟩)
    rw [Action.act_bind, deleted]
    dsimp only
    obtain ⟨saves, fails⟩ := Action.act_commitChoice
      { s with place := { s.place with disk := d₂ } }
    have carried := carriedOut_of_steps led
      (fun file member => by
        obtain ⟨ns, -, led', other, -⟩ := others file member
        exact ⟨ns, led', other⟩)
      edits written deletes gone saves
    rw [Action.act_bind]
    generalize Session.act { s with place := { s.place with disk := d₂ } } Action.commitChoice = result
      at saves fails carried
    rcases result with ⟨why | _, s'⟩
    · exact .inr ⟨carried, fails⟩
    · obtain ⟨⟨x, ended⟩, same⟩ := only report s'
      refine .inr ⟨same ▸ carried, fun why failed => ?_⟩
      simp [ended] at failed

end Workflow
end Registrar
