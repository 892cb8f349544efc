import Registrar.Workspace.Basic

/-!
Registries on one line of folders: those in a folder and above it up to a boundary, and those in
the folders below it.
-/

namespace Registrar

/-- The registries above and below a folder. -/
structure Nesting where
  /-- In the folder itself or above it. -/
  above : List Path := []
  /-- In the folders below it. -/
  below : List Path := []
  deriving DecidableEq, Repr

/-- There are registries above or below. -/
def Nesting.isNested (n : Nesting) : Bool := !n.above.isEmpty || !n.below.isEmpty

/-- The files of a folder, without those in the folders below it. -/
def Folder.files : Folder → List String
  | .empty => []
  | .file name _ rest => name :: files rest
  | .folder _ _ rest => files rest

/-- The source files in the folders of a folder; the walk leaves out nothing but below them. -/
def Folder.deeperSources (config : Config) (here : Path) : Folder → List Path
  | .empty => []
  | .file _ _ rest => deeperSources config here rest
  | .folder name inside rest =>
    inside.sources config (here.child name) ++ deeperSources config here rest

namespace Workspace

/-- The registries that stand directly in a folder. -/
def registriesIn (w : Workspace) (folder : Path) : List Path :=
  match w.disk.find folder with
  | .ok (.folder inside) =>
    let files := (inside.files.filter w.config.isSource).map folder.child
    sorted (fun a b => (a.order b).isLE) (files.filter w.isRegistry)
  | _ => []

/-- The paths up to and including the boundary. -/
def upTo (boundary? : Option Path) : List Path → List Path
  | [] => []
  | folder :: above =>
    if boundary?.any folder.same then [folder] else folder :: upTo boundary? above

/-- The registries above and below a folder. -/
def nesting (w : Workspace) (folder : Path) (boundary? : Option Path) : Nesting where
  above := (upTo boundary? folder.ancestors).flatMap w.registriesIn
  below := match w.disk.find folder with
    | .ok (.folder inside) => (inside.deeperSources w.config folder).filter w.isRegistry
    | _ => []

end Workspace
end Registrar
