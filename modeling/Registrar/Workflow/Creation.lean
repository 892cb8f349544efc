import Registrar.Registry.Source
import Registrar.Workflow.Membership
import Registrar.Workspace.Nesting

/-!
New files: a registry, and a helper that may be put into a registry at once. Names are checked
before anything is written, and nothing that is there is written over.
-/

namespace Registrar

/-! ### Registries -/

/-- What is given of a new registry. -/
structure NewRegistry where
  folder? : Option Path := none
  name? : Option String := none
  label? : Option String := none

/-- A new registry. -/
structure RegistryPlan where
  folder : Path
  path : Path
  name : String
  label? : Option String

/-- What is done about registries above or below the place of a new one. -/
inductive NestingChoice where
  | proceed
  | relocate
  | cancel
  deriving DecidableEq, Repr

/-- A choice as it is offered. -/
def NestingChoice.words : NestingChoice → String
  | .proceed => "Create it here anyway"
  | .relocate => "Choose another location"
  | .cancel => "Cancel"

namespace Inquiry

/-- The given name, which has to pass the check, or one that is asked for. -/
def named (given? : Option String) (words : String) (check : String → Except NameFault Unit) :
    Inquiry (Option String) :=
  match given? with
  | none => text words check
  | some given =>
    match check given with
    | .ok () => return some given
    | .error why => throw (.name why)

/-- The given folder or one that is asked for. -/
def folderOr (given? : Option Path) (words : String) : Inquiry (Option Path) := do
  match given? with
  | some given => return some ((← read).resolve given)
  | none => folder words

/-- The words for a folder that would nest. -/
def nestingWords (w : Workplace) (folder : Path) (n : Nesting) : String :=
  String.intercalate "\n" <|
    ["A registry in " ++ w.shown folder ++ " would nest with existing registries:"] ++
      n.above.map (fun p => "  above: " ++ w.shown p) ++
      n.below.map (fun p => "  below: " ++ w.shown p)

/-- The words with which a registry's folder is asked for. -/
def registryFolderWords : String := "Directory for the registry"

/-- A folder in which a registry does not nest, or is to nest; another one is asked for at most
`tries` times. -/
def settledFolder : Nat → Path → Inquiry (Option Path)
  | 0, _ => throw (.answer .noTerminal)
  | tries + 1, folder => do
    let w ← read
    let boundary? := if folder.isUnder w.root then some w.root else none
    let n := w.nesting folder boundary?
    if !n.isNested then return some folder
    else
      Talk.say .warning (nestingWords w folder n)
      match ← one "How do you want to continue?" NestingChoice.words
          [.proceed, .relocate, .cancel] with
      | some .proceed => return some folder
      | some .relocate =>
        match ← Inquiry.folder registryFolderWords with
        | some other => settledFolder tries other
        | none => return none
      | _ => return none

end Inquiry

open Inquiry in
/-- A new registry is written and remembered. -/
def Workflow.newRegistry (options : NewRegistry) : Workflow RegistryPlan where
  inquire := do
    let w ← read
    let some folder ← folderOr options.folder? registryFolderWords | return .cancel
    let trimmed? := options.name?.map fun name => String.ofList (Text.trim name.toList)
    let some name ← named trimmed? "Registry class name" w.config.checkClassName | return .cancel
    let settled? ← if w.config.preventNesting then do settledFolder ((← patience) + 1) folder
      else pure (some folder)
    let some folder := settled? | return .cancel
    let stem := Naming.fileStem w.config name
    match w.config.checkFileName stem with
    | .error why => throw (.name why)
    | .ok () =>
      let path := folder.child (stem ++ w.config.registryExtension)
      if w.disk.holds path then throw (.occupied path)
      else return .carryOut ⟨folder, path, name, options.label?⟩
  carryOut plan := do
    let w ← Action.place
    Action.atPath .create plan.folder (·.makeFolders plan.folder)
    Action.atPath .write plan.path
      (·.write plan.path (Source.registry w.config plan.name).toList)
    Action.change (·.upsert plan.path plan.label?)
    Talk.say .success ("Created registry " ++ plan.name ++ " at " ++ w.shown plan.path)

/-! ### Helpers -/

/-- What is given of a new helper. -/
structure NewHelper where
  folder? : Option Path := none
  name? : Option String := none
  /-- Whether it is put into a registry. -/
  register? : Option Bool := none
  registry? : Option Path := none

/-- A new helper. -/
structure HelperPlan where
  folder : Path
  path : Path
  className : String
  /-- The registry that it is put into. -/
  registry? : Option Path

/-- The name of a helper checked as it will be used: with the suffix as a class, and as a file. -/
def Config.checkHelperName (config : Config) (name : String) : Except NameFault Unit := do
  if Text.isBlank name.toList then throw .blankHelper
  let className := Naming.canonical config.classSuffix name
  if className == config.contextType then throw (.contextType className)
  config.checkClassName className
  config.checkFileName (Naming.fileStem config className)

open Inquiry in
/-- A new helper is written, and put into a registry if it is to be. -/
def Workflow.newHelper (options : NewHelper) : Workflow HelperPlan where
  inquire := do
    let w ← read
    let some folder ← folderOr options.folder? "Directory for the helper" | return .cancel
    let some name ← named options.name? "Helper class name" w.config.checkHelperName
      | return .cancel
    let className := Naming.canonical w.config.classSuffix name
    let path := folder.child (Naming.fileStem w.config className ++ w.config.helperExtension)
    if w.disk.holds path then throw (.occupied path)
    let register ← match options.register? with
      | some register => pure register
      | none => confirmation ("Register " ++ className ++ " in a registry?") true
    if register then
      withRegistry options.registry? fun registry =>
        return .carryOut ⟨folder, path, className, some registry⟩
    else return .carryOut ⟨folder, path, className, none⟩
  carryOut plan := do
    let w ← Action.place
    Action.atPath .create plan.folder (·.makeFolders plan.folder)
    Action.atPath .write plan.path
      (·.write plan.path (Source.helper w.config plan.className).toList)
    Talk.say .success ("Created " ++ plan.className ++ " at " ++ w.shown plan.path)
    match plan.registry? with
    | none => return
    | some registry => addAndReport registry [plan.path]

end Registrar
