import Registrar.Proofs.Session.Choice
import Registrar.Workflow.Creation

/-!
What workflows change. The registry of a plan is the one that the user has chosen, so plans are about
registries exactly when every remembered registry that is still there is one.
-/

namespace Registrar

open Inquiry

/-- A file that is there and is a registry. -/
def Workplace.HasRegistry (w : Workplace) (path : Path) : Prop :=
  w.disk.isFile path = true ∧ w.isRegistry path = true

/-- A plan that an inquiry comes to is about a registry. -/
def Workplace.Targets {Plan : Type} (w : Workplace) (about? : Plan → Option Path) :
    Decision Plan → Prop
  | .carryOut plan => ∀ path, about? plan = some path → w.HasRegistry path
  | _ => True

/-- Whatever a workplace is asked, the registries that commands are about are there and are
registries: the one that is chosen, and those that plans change or delete. -/
structure Workplace.KeepsToRegistries (w : Workplace) : Prop where
  chosen : ∀ given?, Yields w (registry given?) fun path? =>
    ∀ path, path? = some path → w.HasRegistry path
  added : ∀ options, Yields w (Workflow.add options).inquire (w.Targets (some ·.registry))
  removed : ∀ options, Yields w (Workflow.remove options).inquire (w.Targets (some ·.registry))
  cleanedUp : ∀ options, Yields w (Workflow.cleanUp options).inquire (w.Targets (some ·.registry))
  deleted : ∀ options, Yields w (Workflow.delete options).inquire (w.Targets some)
  created : ∀ options,
    Yields w (Workflow.newHelper options).inquire (w.Targets fun plan => plan.registry?)

namespace Workflow

variable {w : Workplace}

section
variable {Plan : Type} {about? : Plan → Option Path}

/-- What is confirmed is the plan. -/
theorem yields_confirmed (sure : Bool) (words : String) (offered : Bool) {plan : Plan}
    (h : w.Targets about? (.carryOut plan)) :
    Yields w (confirmed sure words offered plan) (w.Targets about?) := by
  rw [confirmed]
  split
  · exact .pure h
  · refine .next fun yes => ?_
    split
    · exact .pure h
    · exact .pure trivial

/-- A command goes on with the registry that is chosen. -/
theorem yields_withRegistry {given? : Option Path} {next : Path → Inquiry (Decision Plan)}
    (chosen : Yields w (registry given?) fun path? => ∀ path, path? = some path → w.HasRegistry path)
    (rest : ∀ path, w.HasRegistry path → Yields w (next path) (w.Targets about?)) :
    Yields w (withRegistry given? next) (w.Targets about?) := by
  refine chosen.bind fun path? sound => ?_
  split
  · exact .pure trivial
  · next path => exact rest path (sound path rfl)

end

/-- The plan of a new helper: nothing stands where it is to be, and it is put into the registry that
has been chosen. -/
theorem yields_newHelper_plan {options : NewHelper} {good : Path → Prop}
    (chosen : Yields w (registry options.registry?) fun path? =>
      ∀ path, path? = some path → good path) :
    Yields w (newHelper options).inquire fun decision => ∀ plan, decision = .carryOut plan →
      w.disk.holds plan.path = false ∧ ∀ path, plan.registry? = some path → good path := by
  refine .read (.next fun folder? => ?_)
  split
  · refine .next fun name? => ?_
    split
    · dsimp only
      -- Whether it is to be registered is given or asked for; the rest is the same.
      have settle : ∀ folder path className, w.disk.holds path = false → ∀ register, Yields w
          (if register = true then
            withRegistry options.registry? fun registry =>
              pure (.carryOut ⟨folder, path, className, some registry⟩)
          else pure (.carryOut ⟨folder, path, className, none⟩))
          fun decision : Decision HelperPlan => ∀ plan, decision = .carryOut plan →
            w.disk.holds plan.path = false ∧ ∀ path, plan.registry? = some path → good path := by
        intro folder path className free register
        split
        · refine chosen.bind fun registry? found => ?_
          split
          · exact .pure (by simp)
          · next registry =>
            refine .pure ?_
            rintro plan ⟨⟩
            exact ⟨free, found⟩
        · refine .pure ?_
          rintro plan ⟨⟩
          exact ⟨free, by simp⟩
      split
      · exact .bind (.throw _) fun _ (never : False) => never.elim
      · next free =>
        rw [Bool.not_eq_true] at free
        split <;> exact .next fun _ => settle _ _ _ free _
    · exact .pure (by simp)
  · exact .pure (by simp)

section
variable (chosen : ∀ given?, Yields w (registry given?) fun path? =>
  ∀ path, path? = some path → w.HasRegistry path)
include chosen

theorem yields_add (options : Adding) :
    Yields w (add options).inquire (w.Targets (some ·.registry)) := by
  refine yields_withRegistry (chosen _) fun path sound => ?_
  have about : ∀ files, w.Targets (some ·.registry) (.carryOut (⟨path, files⟩ : AddingPlan)) := by
    rintro files path' ⟨⟩
    exact sound
  split
  · refine .next fun files? => ?_
    split
    · exact .pure trivial
    · exact .pure (about _)
  · exact .next fun files => .pure (about _)

theorem yields_remove (options : Removing) :
    Yields w (remove options).inquire (w.Targets (some ·.registry)) := by
  refine yields_withRegistry (chosen _) fun path sound => ?_
  have about : ∀ classes files,
      w.Targets (some ·.registry) (.carryOut (⟨path, classes, files⟩ : RemovingPlan)) := by
    rintro classes files path' ⟨⟩
    exact sound
  refine .next fun text => ?_
  dsimp only
  -- The classes are given or picked, and their files are looked for or not.
  split
  all_goals
    refine .next fun classes? => ?_
    split
    · split <;> exact .next fun files => yields_confirmed _ _ _ (about _ _)
    · exact .pure trivial

theorem yields_cleanUp (options : Discarding) :
    Yields w (cleanUp options).inquire (w.Targets (some ·.registry)) := by
  refine yields_withRegistry (chosen _) fun path sound => ?_
  have about : ∀ classes,
      w.Targets (some ·.registry) (.carryOut (⟨path, classes⟩ : CleanupPlan)) := by
    rintro classes path' ⟨⟩
    exact sound
  refine .read (.next fun text => ?_)
  dsimp only
  split
  · exact .pure (about _)
  · exact .next fun _ => yields_confirmed _ _ _ (about _)

theorem yields_delete (options : Discarding) :
    Yields w (delete options).inquire (w.Targets some) := by
  refine yields_withRegistry (chosen _) fun path sound => .next fun _ => ?_
  refine yields_confirmed _ _ _ ?_
  rintro path' ⟨⟩
  exact sound

theorem yields_newHelper (options : NewHelper) :
    Yields w (newHelper options).inquire (w.Targets fun plan => plan.registry?) := by
  refine (yields_newHelper_plan (chosen _)).mono fun decision planned => ?_
  cases decision with
  | carryOut plan => exact (planned plan rfl).2
  | cancel => trivial
  | rest => trivial

end

end Workflow

/-- Commands keep to registries exactly when every remembered registry that is still there is one. -/
theorem Workplace.keepsToRegistries_iff (w : Workplace) (proper : w.disk.top.Proper) :
    w.KeepsToRegistries ↔ ∀ r ∈ w.store.preferences.registries,
      w.disk.isFile r.path = true → w.isRegistry r.path = true := by
  constructor
  · intro keeps r member live
    obtain ⟨talk, chosen⟩ := exists_inquire_registry member live
    exact (keeps.chosen none talk _ chosen r.path rfl).2
  · intro kept
    have chosen : ∀ given?, Yields w (registry given?) fun path? =>
        ∀ path, path? = some path → w.HasRegistry path := fun given? =>
      yields_registry (fun _ there is_registry => ⟨there, is_registry⟩)
        (fun r member there => ⟨there, kept r member there⟩) proper given?
    exact {
      chosen
      added := Workflow.yields_add chosen
      removed := Workflow.yields_remove chosen
      cleanedUp := Workflow.yields_cleanUp chosen
      deleted := Workflow.yields_delete chosen
      created := Workflow.yields_newHelper chosen }

/-- A file with notes that has got a label is taken for a registry. -/
theorem Workplace.keepsToRegistries_iff_notes :
    let notes : Folder := .file "notes.ts" ⟨.text "const notes = 1;".toList, 0⟩ .empty
    let w : Workplace := ⟨⟨{ top := .folder "w" notes .empty }, ⟨"/w"⟩, {}⟩,
      { preferences := Preferences.upsert {} 0 ⟨"/w/notes.ts"⟩ (some "Notes") }, 0⟩
    w.disk.top.Proper ∧ ¬w.KeepsToRegistries := by
  intro notes w
  have proper : w.disk.top.Proper := by
    refine ⟨⟨by decide +kernel, by decide +kernel⟩, rfl, ⟨⟨by decide +kernel, by decide +kernel⟩,
      rfl, trivial⟩, trivial⟩
  refine ⟨proper, fun keeps => ?_⟩
  have known := (w.keepsToRegistries_iff proper).mp keeps ⟨⟨"/w/notes.ts"⟩, "Notes", 1⟩
    (by decide +kernel) (by decide +kernel)
  exact absurd known (by decide +kernel)

end Registrar
