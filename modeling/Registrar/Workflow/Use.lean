import Registrar.Workflow.Basic
import Registrar.Workspace.Change

/-!
Using a helper: a call of its accessor is put into a file, which is never the file that declares the
helper itself.
-/

namespace Registrar

/-- What is given of a use. -/
structure Using where
  file : Path
  /-- The number of the line before which the call is put, from 1. -/
  line : Nat
  /-- The accessor; it is asked for if it is not given. -/
  accessor? : Option String := none
  registry? : Option Path := none

/-- A call that is put into a file. -/
structure UsePlan where
  file : Path
  line : Nat
  registry : Path
  accessor : String
  className : String

/-- The helpers of a registry other than the file's own, with their accessors; the user is told of
the own one. -/
def Inquiry.usable (z : Zones) (own? : Option String) : Inquiry (List (String × String)) := do
  let helpers := z.helpers.map fun (a, className) => (a.name, className)
  (helpers.filter fun (name, _) => own? == some name).forM fun (name, className) =>
    Talk.say .info
      ("Not offering " ++ name ++ ": this file declares " ++ className ++ " itself")
  return helpers.filter fun (name, _) => own? != some name

open Inquiry in
/-- A call of an accessor is put into a file. -/
def Workflow.use (options : Using) : Workflow UsePlan where
  inquire := do
    let w ← read
    let file := w.resolve options.file
    if !w.disk.isFile file then throw (.fileMissing file)
    withRegistry options.registry? fun registry => do
      if file.same registry then throw .ownRegistry
      let z := Zones.ofText (← readText registry)
      let own? ← match w.toWorkspace.ownAccessor? file registry with
        | .ok own? => pure own?
        | .error why => throw why
      let helpers ← usable z own?
      match options.accessor? with
      | some wanted =>
        if own? == some wanted then
          Talk.say .warning ("Skipped " ++ wanted ++ ": it would make this file use itself")
          return .rest
        match helpers.find? fun (name, _) => name == wanted with
        | some (accessor, className) =>
          return .carryOut ⟨file, options.line, registry, accessor, className⟩
        | none => throw (.noAccessor wanted)
      | none =>
        if helpers.isEmpty then throw (.nothingToUse registry)
        match ← one "Helper to use" (fun (name, className) => name ++ " (" ++ className ++ ")")
            helpers with
        | some (accessor, className) =>
          return .carryOut ⟨file, options.line, registry, accessor, className⟩
        | none => return .cancel
  carryOut plan := do
    Action.changeDisk fun w =>
      (w.use plan.file plan.line plan.registry plan.accessor plan.className).map ((), ·)
    Action.commitChoice
    Talk.say .success
      ("Inserted " ++ plan.accessor ++ "() into " ++ (← Action.place).shown plan.file ++ ":" ++
        plan.line.repr)

end Registrar
