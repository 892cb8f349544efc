import Registrar.Config.Basic
import Registrar.Dialogue.Answer
import Registrar.Disk.Basic
import Registrar.Preferences.Document
import Registrar.Toml.Value

/-!
Failures: what can keep a command from being carried out, what the user is told, and what lies
behind it.
-/

namespace Registrar

/-- What was done to a file or a folder when it failed. -/
inductive Deed where
  | read
  | write
  | create
  | delete
  deriving DecidableEq, Repr

/-- The words for a deed. -/
def Deed.words : Deed → String
  | .read => "read"
  | .write => "write"
  | .create => "create"
  | .delete => "delete"

/-- Why a command was not carried out. -/
inductive Failure where
  /-- A file or a folder could not be worked with. -/
  | file (deed : Deed) (path : Path) (why : FileError)
  /-- A configuration file cannot be read. -/
  | configText (path : Path) (why : Toml.Fault)
  /-- The settings cannot be used. -/
  | config (why : ConfigFault)
  /-- A preferences file cannot be read. -/
  | preferencesText (path : Path) (why : Json.Fault)
  | name (why : NameFault)
  | answer (why : AnswerFault)
  /-- The workspace is not there. -/
  | noRoot (path : Path) (why : FileError)
  /-- Something stands where a new file is to be. -/
  | occupied (path : Path)
  /-- There is no registry in the workspace. -/
  | noRegistry (root : Path)
  | registryMissing (path : Path)
  | notRegistry (path : Path)
  | helperMissing (path : Path)
  | fileMissing (path : Path)
  | notRemembered (path : Path)
  /-- Every helper of the workspace is registered. -/
  | nothingToAdd (root : Path)
  | nothingToUse (registry : Path)
  | nothingToRemove (registry : Path)
  /-- A helper would be used in the registry that hands it out. -/
  | ownRegistry
  | noAccessor (name : String)
  /-- Files that were to be deleted are mentioned elsewhere. -/
  | referenced (places : List String)
  /-- A strict validation found errors. -/
  | invalid (errors : Nat)
  deriving DecidableEq, Repr

namespace Failure

/-- What the user is told. -/
def message : Failure → String
  | .file deed path _ => "Failed to " ++ deed.words ++ " " ++ path.text
  | .configText path _ => "Failed to parse " ++ path.text
  | .config why => why.message
  | .preferencesText path _ => "Failed to parse " ++ path.text
  | .name why => why.message
  | .answer why => why.message
  | .noRoot path _ => "Workspace root " ++ path.text ++ " not found"
  | .occupied path => path.text ++ " already exists"
  | .noRegistry root => "No registry found under " ++ root.text ++ ". Run create-registry first"
  | .registryMissing path => "Registry " ++ path.text ++ " does not exist"
  | .notRegistry path => path.text ++ " is not a registry"
  | .helperMissing path => "Helper file " ++ path.text ++ " does not exist"
  | .fileMissing path => path.text ++ " does not exist"
  | .notRemembered path => path.text ++ " is not a remembered registry"
  | .nothingToAdd root => "No unregistered helper files found under " ++ root.text
  | .nothingToUse registry => "Registry " ++ registry.text ++ " has no helpers to use"
  | .nothingToRemove registry => "Registry " ++ registry.text ++ " has no helpers"
  | .ownRegistry => "Helpers cannot be used inside their own registry"
  | .noAccessor wanted => "Registry has no helper accessor named '" ++ wanted ++ "'"
  | .referenced places =>
    "Refusing to delete helper files that are still referenced:\n  " ++
      String.intercalate "\n  " places
  | .invalid errors => "Validation found " ++ errors.repr ++ " error(s)"

/-- What lies behind a failure. -/
def cause? : Failure → Option String
  | .file _ _ why => some why.message
  | .configText _ why => some why.message
  | .config (.badPattern _ _ fault) => some fault.message
  | .config (.badGlob _ fault) => some fault.message
  | .preferencesText _ why => some why.message
  | .answer .noTerminal => some "not a terminal"
  | .noRoot _ why => some why.message
  | _ => none

/-- The message with what lies behind it. -/
def wholeMessage (f : Failure) : String :=
  match f.cause? with
  | some cause => f.message ++ ": " ++ cause
  | none => f.message

end Failure
end Registrar
