import Registrar.Failure
import Registrar.Naming
import Registrar.Registry.Recognition

/-!
The files of a workspace. The walk goes depth first through the folders below the root in the order
of names and leaves out what is hidden, what is foreign and what is excluded; a file is then told
to be a registry or a helper by its text.
-/

namespace Registrar

/-- A disk with a root and the settings that hold below it. -/
structure Workspace where
  disk : Disk
  root : Path
  config : Config

/-- Whether the walk leaves out an entry, and with a folder everything below it. -/
def Config.skips (config : Config) (path : Path) (name : String) : Bool :=
  name.toList.head? == some '.' || name == config.dependencyDir || config.excludes path.text

/-- Whether a name is that of a source file. -/
def Config.isSource (config : Config) (name : String) : Bool :=
  Text.finishesWith name.toList config.sourceExtension.toList

/-- The source files among the entries of a folder and below them. -/
def Folder.sources (config : Config) (here : Path) : Folder → List Path
  | .empty => []
  | .file name _ rest =>
    let file := here.child name
    (if !config.skips file name && config.isSource name then [file] else []) ++
      sources config here rest
  | .folder name inside rest =>
    (if config.skips (here.child name) name then [] else sources config (here.child name) inside) ++
      sources config here rest

/-- What is known of the class of a file. -/
inductive ClassIdentity where
  /-- The file declares it. -/
  | declared (name : String)
  /-- The file declares none; the name follows from that of the file. -/
  | guessed (name : String)
  deriving DecidableEq, Repr

/-- The name of the class. -/
def ClassIdentity.name : ClassIdentity → String
  | .declared name => name
  | .guessed name => name

/-- What a file is. -/
inductive FileKind where
  | registry
  | helper (identity : ClassIdentity)
  | unreadable
  deriving DecidableEq, Repr

/-- A file that is no registry. -/
structure HelperFile where
  file : Path
  identity : ClassIdentity
  deriving DecidableEq, Repr

namespace HelperFile

/-- The field that keeps the helper. -/
def field (config : Config) (h : HelperFile) : String :=
  Naming.field config.fieldPrefix h.identity.name

/-- The method that hands out the helper. -/
def accessor (h : HelperFile) : String := Naming.accessor h.identity.name

end HelperFile

/-- Whether a file has a name that registries have. -/
def Path.soundsLikeRegistry (p : Path) : Bool :=
  let stem := (p.fileName?.getD "").toList.takeWhile (· != '.')
  ["registry", "manager", "factory"].any fun ending =>
    Text.finishesWith (Letter.lowerAll stem) ending.toList

namespace Workspace

/-- The source files below the root; a root that is a file is its own only source. -/
def sources (w : Workspace) : List Path :=
  match w.disk.find w.root with
  | .ok (.folder inside) => inside.sources w.config w.root
  | .ok (.file _) => if w.root.fileName?.any w.config.isSource then [w.root] else []
  | .error _ => []

/-- What a text makes of its file. -/
def kindOf (config : Config) (file : Path) (text : Text) : FileKind :=
  if Recognition.isRegistry text then .registry
  else
    match Recognition.className? text with
    | some name => .helper (.declared name)
    | none => .helper (.guessed (Naming.guessClass config file))

/-- What a file is; only the name speaks for one that cannot be read. -/
def kind (w : Workspace) (file : Path) : FileKind :=
  match w.disk.readText? file with
  | some text => kindOf w.config file text
  | none => if file.soundsLikeRegistry then .registry else .unreadable

/-- Whether a file is a registry. -/
def isRegistry (w : Workspace) (file : Path) : Bool := w.kind file == .registry

/-- The registries among the sources. -/
def registries (w : Workspace) : List Path := w.sources.filter w.isRegistry

/-- The first registry of the walk. -/
def firstRegistry? (w : Workspace) : Option Path := w.sources.find? w.isRegistry

/-- The sources that are no registries, with their classes. -/
def helperFiles (w : Workspace) : List HelperFile :=
  w.sources.filterMap fun file =>
    match w.kind file with
    | .helper identity => some ⟨file, identity⟩
    | _ => none

end Workspace
end Registrar
