import Registrar.Registry.Zones
import Registrar.Specifier
import Registrar.Workspace.Basic

/-!
From the imports of a registry to files, and the entries whose files are gone.
-/

namespace Registrar

/-- A registry's entry whose helper file is gone. -/
structure Orphan where
  className : String
  accessor : String
  specifier : String
  deriving DecidableEq, Repr

namespace Workspace

/-- The text of a file that has to be there. -/
def read (w : Workspace) (file : Path) : Except Failure Text :=
  (w.disk.readText file).mapError (Failure.file .read file)

/-- The first existing file that a path stands for. -/
def target? (w : Workspace) (base : Path) : Option Path :=
  (Specifier.targets w.config base).find? w.disk.isFile

/-- The path from which a registry imports a class. -/
def importBase? (w : Workspace) (registry : Path) (z : Zones) (className : String) : Option Path :=
  (z.importOf? className).bind fun i => Specifier.base? w.config w.root registry i.specifier

/-- The existing file from which a registry imports a class. -/
def helperFile? (w : Workspace) (registry : Path) (z : Zones) (className : String) : Option Path :=
  (w.importBase? registry z className).bind w.target?

/-- The entries of a registry whose files are gone; those from packages are not among them. -/
def orphansIn (w : Workspace) (registry : Path) (z : Zones) : List Orphan :=
  z.helpers.filterMap fun (a, className) =>
    match z.importOf? className with
    | none => none
    | some i =>
      match Specifier.base? w.config w.root registry i.specifier with
      | none => none
      | some base =>
        if (w.target? base).isNone then some ⟨className, a.name, i.specifier⟩ else none

/-- The entries of a registry file whose files are gone. -/
def orphans (w : Workspace) (registry : Path) : Except Failure (List Orphan) :=
  (w.read registry).map fun text => w.orphansIn registry (Zones.ofText text)

/-- The accessor through which a registry hands out the class that a file declares. -/
def ownAccessor? (w : Workspace) (file registry : Path) : Except Failure (Option String) := do
  match Recognition.className? (← w.read file) with
  | none => return none
  | some className =>
    let z := Zones.ofText (← w.read registry)
    if z.importsName className then return (z.accessorOf? className).map (·.name) else return none

end Workspace
end Registrar
