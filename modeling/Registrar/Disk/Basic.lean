import Registrar.Disk.Folder
import Registrar.Path.Basic

/-!
A disk: a tree of folders, the folder from which relative paths are read, and a clock that every
write moves on. A path is followed step by step through folders that have to be there.
-/

namespace Registrar

/-- Why a file or a folder could not be worked with. -/
inductive FileError where
  | notFound
  /-- A file stands where a folder is needed. -/
  | notDirectory
  /-- A folder stands where a file is needed. -/
  | isDirectory
  | alreadyExists
  /-- The file holds no text. -/
  | invalidData
  deriving DecidableEq, Repr

/-- The system's words. -/
def FileError.message : FileError → String
  | .notFound => "No such file or directory (os error 2)"
  | .notDirectory => "Not a directory (os error 20)"
  | .isDirectory => "Is a directory (os error 21)"
  | .alreadyExists => "File exists (os error 17)"
  | .invalidData => "stream did not contain valid UTF-8"

/-- Files and folders. -/
structure Disk where
  top : Folder := .empty
  /-- The names of the folder from which relative paths are read. -/
  workingFolder : Option (List String) := none
  /-- The moment of the next write. -/
  now : Nat := 0

namespace Disk

/-- Where the pieces of a path lead from a folder. -/
def follow (top : Folder) : List String → List Text → Except FileError (List String)
  | here, [] => .ok here
  | here, piece :: rest =>
    match top.at? here with
    | some (.folder _) =>
      match Path.component? piece with
      | some (.name n) => follow top (here ++ [n]) rest
      | some .up => follow top here.dropLast rest
      | _ => follow top here rest
    | some (.file _) => .error .notDirectory
    | none => .error .notFound

/-- Where the pieces of a path are followed from. -/
def start (d : Disk) (p : Path) : Except FileError (List String) :=
  if p.isAbsolute then .ok []
  else if p.text.isEmpty then .error .notFound
  else
    match d.workingFolder with
    | some here => .ok here
    | none => .error .notFound

/-- The names that a path leads through from the top. -/
def locate (d : Disk) (p : Path) : Except FileError (List String) := do
  follow d.top (← d.start p) p.pieces

/-- What stands at a path. -/
def find (d : Disk) (p : Path) : Except FileError Item := do
  match d.top.at? (← d.locate p) with
  | some item => return item
  | none => throw .notFound

/-- A file stands at the path. -/
def isFile (d : Disk) (p : Path) : Bool :=
  match d.find p with
  | .ok (.file _) => true
  | _ => false

/-- A folder stands at the path. -/
def isFolder (d : Disk) (p : Path) : Bool :=
  match d.find p with
  | .ok (.folder _) => true
  | _ => false

/-- Something stands at the path. -/
def holds (d : Disk) (p : Path) : Bool := (d.find p).isOk

/-- The file at a path. -/
def file (d : Disk) (p : Path) : Except FileError File := do
  match ← d.find p with
  | .file f => return f
  | .folder _ => throw .isDirectory

/-- The text of the file at a path. -/
def readText (d : Disk) (p : Path) : Except FileError Text := do
  match (← d.file p).contents with
  | .text t => return t
  | .bytes _ => throw .invalidData

/-- The text of the file at a path, if it can be read. -/
def readText? (d : Disk) (p : Path) : Option Text := (d.readText p).toOption

/-- When the file at a path was last written; the beginning of time if it cannot be told. -/
def modified (d : Disk) (p : Path) : Nat :=
  match d.file p with
  | .ok f => f.modified
  | .error _ => 0

/-- The path from the top, without steps upward. -/
def canonical (d : Disk) (p : Path) : Except FileError Path := do
  let names ← d.locate p
  if (d.top.at? names).isSome then return .ofNames true names else throw .notFound

/-- Both paths lead to the same place; paths that lead nowhere are compared by their steps. -/
def sameFile (d : Disk) (p q : Path) : Bool :=
  match d.canonical p, d.canonical q with
  | .ok p, .ok q => p == q
  | _, _ => p.same q

/-- The pieces of a path without the slashes at its end, and whether there are any. -/
def trimmedPieces (p : Path) : List Text × Bool :=
  let kept := (p.pieces.reverse.dropWhile List.isEmpty).reverse
  (kept, kept.length != p.pieces.length)

/-- The folder in which a path's last name stands or would stand, and that name; a path that ends in
a step that is no name has none. -/
def place (d : Disk) (p : Path) : Except FileError (List String × Option String) := do
  let (kept, _) := trimmedPieces p
  let start ← d.start p
  match kept.getLast?.bind Path.component? with
  | some (.name n) =>
    let here ← follow d.top start kept.dropLast
    match d.top.at? here with
    | some (.folder _) => return (here, some n)
    | some (.file _) => throw .notDirectory
    | none => throw .notFound
  | _ => return (← follow d.top start kept, none)

/-- The disk after a file has been written, made first if it is not there. -/
def write (d : Disk) (p : Path) (t : Text) : Except FileError Disk := do
  match ← d.place p with
  | (_, none) => throw .isDirectory
  | (here, some n) =>
    let names := here ++ [n]
    match d.top.at? names with
    | some (.folder _) => throw .isDirectory
    | _ =>
      if (trimmedPieces p).2 then throw .isDirectory
      else return { d with top := d.top.putAt names (.file ⟨.text t, d.now⟩), now := d.now + 1 }

/-- The disk after a file has been removed. -/
def remove (d : Disk) (p : Path) : Except FileError Disk := do
  let names ← d.locate p
  match d.top.at? names with
  | some (.file _) => return { d with top := d.top.eraseAt names }
  | some (.folder _) => throw .isDirectory
  | none => throw .notFound

/-- The disk with one more folder. -/
def makeFolder (d : Disk) (p : Path) : Except FileError Disk := do
  match ← d.place p with
  | (_, none) => throw .alreadyExists
  | (here, some n) =>
    let names := here ++ [n]
    if (d.top.at? names).isSome then throw .alreadyExists
    else return { d with top := d.top.putAt names (.folder .empty) }

/-- The disk with the first path as a folder; the paths after it are those above it. -/
def makeFoldersUp : List Path → Disk → Except FileError Disk
  | [], _ => .error .notFound
  | p :: above, d =>
    if p.components.isEmpty then .ok d
    else
      let settle (d : Disk) (e : FileError) : Except FileError Disk :=
        if d.isFolder p then .ok d else .error e
      match d.makeFolder p with
      | .ok d => .ok d
      | .error .notFound =>
        match makeFoldersUp above d with
        | .error e => .error e
        | .ok d =>
          match d.makeFolder p with
          | .ok d => .ok d
          | .error e => settle d e
      | .error e => settle d e

/-- The disk with a folder at the path, those above it included. -/
def makeFolders (d : Disk) (p : Path) : Except FileError Disk := makeFoldersUp p.ancestors d

end Disk
end Registrar
