import Registrar.Registry.Addition
import Registrar.Workspace.Finding
import Registrar.Workspace.Resolution

/-!
The validation of a workspace: every source is told to be a registry or a helper, and what does not
fit together is reported. Nothing is written.
-/

namespace Registrar

/-- The sizes of a validation. -/
structure Diagnostics where
  filesScanned : Nat
  registries : Nat
  helpers : Nat
  registeredHelpers : Nat
  errors : Nat
  warnings : Nat
  deriving DecidableEq, Repr

/-- The sizes by name, as they are written. -/
def Diagnostics.members (d : Diagnostics) : List (String × Nat) :=
  [("files_scanned", d.filesScanned), ("registries", d.registries), ("helpers", d.helpers),
    ("registered_helpers", d.registeredHelpers), ("errors", d.errors), ("warnings", d.warnings)]

/-- The outcome of a validation. -/
structure ValidationReport where
  findings : List Finding
  diagnostics : Diagnostics
  deriving DecidableEq, Repr

namespace ValidationReport

/-- There are errors among the findings. -/
def hasErrors (r : ValidationReport) : Bool := 0 < r.diagnostics.errors

/-- The report as a JSON value. -/
def value (r : ValidationReport) : Json.Value :=
  .ofMembers [("findings", .array (r.findings.map Finding.value)),
    ("diagnostics", .ofMembers (r.diagnostics.members.map fun (name, n) => (name, .ofNat n)))]

end ValidationReport

/-- What the registries of a workspace hand out. -/
structure Registered where
  /-- The existing files of the classes that are handed out. -/
  files : List Path := []
  classes : List String := []
  deriving DecidableEq, Repr

/-- A file is the existing file of a class that is handed out. -/
def Registered.hasFile (r : Registered) (file : Path) : Bool := r.files.any file.same

namespace Workspace

/-- The deeper of two registries of which one lies at or below the folder of the other, as a
finding. -/
def nestedPair (config : Config) (a b : Path) : Option Finding :=
  match a.parent?, b.parent? with
  | some folderA, some folderB =>
    if folderB.isUnder folderA then some (.of config b (.nested a))
    else if folderA.isUnder folderB then some (.of config a (.nested b))
    else none
  | _, _ => none

/-- The nested pairs among registries. -/
def nestedPairs (config : Config) : List Path → List Finding
  | [] => []
  | a :: rest => rest.filterMap (nestedPair config a) ++ nestedPairs config rest

/-- The registries with their zones; all of them have to be readable. -/
def readRegistries (w : Workspace) (registries : List Path) :
    Except Failure (List (Path × Zones)) :=
  registries.mapM fun registry => (w.read registry).map fun text => (registry, Zones.ofText text)

/-- What registries hand out. -/
def registered (w : Workspace) (registries : List (Path × Zones)) : Registered where
  files := registries.flatMap fun (registry, z) =>
    z.helpers.filterMap fun (_, className) => w.helperFile? registry z className
  classes := registries.flatMap fun (_, z) => z.helpers.map (·.2)

/-- The orphans of registries as findings. -/
def orphanFindings (w : Workspace) (registries : List (Path × Zones)) : List Finding :=
  registries.flatMap fun (registry, z) =>
    (w.orphansIn registry z).map fun o => .of w.config registry (.orphaned o.className o.specifier)

/-- A file whose name is that of a helper file. -/
def isHelperNamed (config : Config) (file : Path) : Bool :=
  Text.finishesWith file.text.toList config.helperExtension.toList

/-- The registries from which a helper imports its own accessor, as findings. -/
def circularFindings (w : Workspace) (registries : List Path) (h : HelperFile) : List Finding :=
  let text := (w.disk.readText? h.file).getD []
  (registries.filter fun registry =>
      importsOwnAccessor w.config w.root registry h.file text h.accessor).map
    fun registry => .of w.config h.file (.circular h.accessor registry)

/-- What is wrong with a helper; `first?` is the file that declared its class before. -/
def helperFindings (w : Workspace) (registries : List Path) (registered : Registered)
    (first? : Option Path) (h : HelperFile) : List Finding :=
  match h.identity with
  | .guessed guess =>
    if isHelperNamed w.config h.file then [.of w.config h.file (.unresolved guess)] else []
  | .declared className =>
    (first?.map fun first => Finding.of w.config h.file (.duplicate className first)).toList ++
      w.circularFindings registries h ++
      (if isHelperNamed w.config h.file && !registered.hasFile h.file &&
          !registered.classes.contains className then
        [.of w.config h.file (.unregistered className)]
      else [])

/-- What is wrong with helpers; `seen` are the classes that were declared before, with their
files. -/
def allHelperFindings (w : Workspace) (registries : List Path) (registered : Registered) :
    List (String × Path) → List HelperFile → List Finding
  | _, [] => []
  | seen, h :: rest =>
    match h.identity with
    | .guessed _ =>
      w.helperFindings registries registered none h ++
        allHelperFindings w registries registered seen rest
    | .declared className =>
      let first? := seen.lookup className
      w.helperFindings registries registered first? h ++
        allHelperFindings w registries registered
          (if first?.isSome then seen else (className, h.file) :: seen) rest

/-- The remembered registries below the root that are gone, as findings. -/
def staleFindings (w : Workspace) (p : Preferences) : List Finding :=
  (p.list.filter fun r => r.path.isUnder w.root && !w.disk.isFile r.path).map fun r =>
    .of w.config r.path (.stale r.label)

/-- What is wrong in the workspace; only a registry that cannot be read keeps it from being told. -/
def validate (w : Workspace) (p : Preferences) : Except Failure ValidationReport := do
  let w := { w with root := w.root.normal }
  let registryPaths := w.registries
  let helpers := w.helperFiles
  let registries ← w.readRegistries registryPaths
  let registered := w.registered registries
  let findings := sorted (fun a b => (a.order b).isLE)
    (nestedPairs w.config registryPaths ++ w.orphanFindings registries ++
      w.allHelperFindings registryPaths registered [] helpers ++ w.staleFindings p)
  return ⟨findings, {
    filesScanned := w.sources.length
    registries := registryPaths.length
    helpers := helpers.length
    registeredHelpers := (helpers.filter fun h => registered.hasFile h.file).length
    errors := (findings.filter (·.severity == .error)).length
    warnings := (findings.filter (·.severity == .warning)).length }⟩

end Workspace
end Registrar
