import Registrar.Registry.Addition
import Registrar.Registry.Removal
import Registrar.Registry.Usage
import Registrar.Workspace.Resolution

/-!
Changes of files: helpers added to a registry file, removed from it, and used in another file. A
file is written once with its whole new text, or not at all.
-/

namespace Registrar.Workspace

/-- The disk after a file has been written. -/
def write (w : Workspace) (file : Path) (text : Text) : Except Failure Disk :=
  (w.disk.write file text).mapError (Failure.file .write file)

/-- A file as it is offered to a registry. -/
def candidate (w : Workspace) (registry file : Path) : Candidate where
  file
  text? := w.disk.readText? file
  isHost := w.disk.sameFile file registry

/-- The disk after a registry has been written if there is a new text for it. -/
def writeChange (w : Workspace) (registry : Path) : Option Text → Except Failure Disk
  | none => .ok w.disk
  | some text => w.write registry text

/-- Files are added to a registry. -/
def add (w : Workspace) (registry : Path) (files : List Path) :
    Except Failure (AdditionReport × Disk) := do
  let text ← w.read registry
  let host : Host := ⟨w.config, w.root, registry, text⟩
  let (report, new?) := host.add (files.map (w.candidate registry))
  return (report, ← w.writeChange registry new?)

/-- Classes are removed from a registry. -/
def remove (w : Workspace) (registry : Path) (classes : List String) :
    Except Failure (RemovalReport × Disk) := do
  let text ← w.read registry
  let (report, new?) := Removal.remove w.config text classes
  return (report, ← w.writeChange registry new?)

/-- A helper is used in a file, before the line with the given number. -/
def use (w : Workspace) (file : Path) (line : Nat) (registry : Path) (accessor className : String) :
    Except Failure Disk := do
  let text ← w.read file
  let specifier := Specifier.of w.config w.root file registry
  w.write file (Usage.insert text line specifier accessor className)

end Registrar.Workspace
