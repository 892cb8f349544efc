import Registrar.Config.Document
import Registrar.Failure

/-!
Where settings come from: a given file, or the nearest one of a fixed name at or above the
workspace, or else the defaults.
-/

namespace Registrar.Config

/-- The name of a configuration file. -/
def fileName : String := "page-registry.toml"

/-- The settings in a file, all of them usable. -/
def ofFile (d : Disk) (path : Path) : Except Failure Config := do
  let text ← (d.readText path).mapError (Failure.file .read path)
  let config ← (Config.read text).mapError (Failure.configText path)
  config.check.mapError Failure.config
  return config

/-- The nearest configuration file at or above a folder. -/
def discover? (d : Disk) (folder : Path) : Option Path :=
  (folder.ancestors.map (·.child fileName)).find? d.isFile

/-- The settings of a workspace. -/
def load (d : Disk) (root : Path) (given? : Option Path) : Except Failure Config :=
  match given?.or (discover? d root) with
  | some path => ofFile d path
  | none => .ok {}

end Registrar.Config
