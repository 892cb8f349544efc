import Registrar.Disk.Basic

/-!
What has changed between two disks, as the steps that lead from the one to the other.
-/

namespace Registrar

/-- One step from a disk to another. -/
inductive DiskChange where
  | makeFolder (path : Path)
  | write (path : Path) (contents : Contents)
  | remove (path : Path)
  deriving DecidableEq, Repr

namespace Folder

/-- The files of a folder and those below it, with what they hold. -/
def allFiles (here : Path) : Folder → List (Path × Contents)
  | .empty => []
  | .file name f rest => (here.child name, f.contents) :: allFiles here rest
  | .folder name inside rest => allFiles (here.child name) inside ++ allFiles here rest

/-- The folders and files that are new or other than in the tree before. -/
def additions (here : Path) (before : Folder) : Folder → List DiskChange
  | .empty => []
  | .file name f rest =>
    (if before.find? name = some (.file f) then [] else [.write (here.child name) f.contents]) ++
      additions here before rest
  | .folder name inside rest =>
    (match before.find? name with
      | some (.folder old) => additions (here.child name) old inside
      | _ => .makeFolder (here.child name) :: additions (here.child name) .empty inside) ++
      additions here before rest

/-- The files of a tree that are not in the tree after. -/
def removals (here : Path) (after : Folder) : Folder → List DiskChange
  | .empty => []
  | .file name _ rest =>
    (match after.find? name with
      | some (.file _) => []
      | _ => [.remove (here.child name)]) ++ removals here after rest
  | .folder name inside rest =>
    removals (here.child name)
        (match after.find? name with
          | some (.folder new) => new
          | _ => .empty) inside ++
      removals here after rest

end Folder

/-- The steps from one disk to another. -/
def Disk.changes (before after : Disk) : List DiskChange :=
  Folder.removals ⟨"/"⟩ after.top before.top ++ Folder.additions ⟨"/"⟩ before.top after.top

end Registrar
