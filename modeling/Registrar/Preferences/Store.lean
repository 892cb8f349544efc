import Registrar.Failure

/-!
Preferences that are kept in a file, or nowhere. Every change is written back at once.
-/

namespace Registrar

/-- Preferences and the file that they are kept in. -/
structure Store where
  file? : Option Path := none
  preferences : Preferences := {}
  deriving DecidableEq, Repr

namespace Store

/-- The preferences that are kept in a file; a file that is not there keeps none. -/
def load (d : Disk) (file : Path) : Except Failure Store :=
  if d.isFile file then do
    let text ← (d.readText file).mapError (Failure.file .read file)
    let preferences ← (Preferences.read text).mapError (Failure.preferencesText file)
    return ⟨some file, preferences⟩
  else .ok ⟨some file, {}⟩

/-- The preferences are written to their file, the folders above it made first. -/
def save (s : Store) (d : Disk) : Except Failure Unit × Disk :=
  match s.file? with
  | none => (.ok (), d)
  | some file =>
    let folder := file.parent?
    match folder.elim (.ok d) d.makeFolders with
    | .error why => (.error (.file .create (folder.getD file) why), d)
    | .ok d =>
      match d.write file s.preferences.text with
      | .error why => (.error (.file .write file why), d)
      | .ok d => (.ok (), d)

end Store
end Registrar
