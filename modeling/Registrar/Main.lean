import Std.Time.DateTime.Timestamp
import Registrar.CommandLine.Run
import Registrar.Disk.Change

/-!
The program. The files that a command may look at are read into a disk, the command is carried out
on that disk, and what has changed is written back.
-/

namespace Registrar.Main

open CommandLine

/-- What a file holds. -/
def readContents (path : String) : IO Contents := do
  let bytes ← IO.FS.readBinFile path
  match String.fromUTF8? bytes with
  | some s => return .text s.toList
  | none => return .bytes bytes.toList

/-- A moment in nanoseconds. -/
def momentOf (t : IO.FS.SystemTime) : Nat := t.sec.toNat * 1000000000 + t.nsec.toNat

/-- A file, or nothing if it is not there. -/
def readFile? (path : String) : IO (Option File) := do
  try
    let real ← IO.FS.realPath path
    let about ← real.metadata
    match about.type with
    | .file => return some ⟨← readContents path, momentOf about.modified⟩
    | _ => return none
  catch _ => return none

/-- The entries of a folder; `enter` says which folders in it are read too. -/
partial def readFolder (enter : String → Bool) (path : String) : IO Folder := do
  let mut found := Folder.empty
  let real ← IO.FS.realPath path
  for entry in ← real.readDir do
    let inner := path ++ "/" ++ entry.fileName
    let about ← entry.path.symlinkMetadata
    match about.type with
    | .file =>
      let file : File := ⟨← readContents inner, momentOf about.modified⟩
      found := found.put entry.fileName (.file file)
    | .dir =>
      if enter entry.fileName then
        found := found.put entry.fileName (.folder (← readFolder enter inner))
      else found := found.put entry.fileName (.folder .empty)
    | _ => pure ()
  return found

/-- The tree with an item where names lead to, the folders above it made first. -/
def plant (item : Item) (top : Folder) (names : List String) : Folder :=
  let folders := (List.range names.length).map fun n => names.take n
  let top := folders.foldl (fun top above =>
    if above.isEmpty || (top.at? above).isSome then top
    else top.putAt above (.folder .empty)) top
  match item, top.at? names with
  | .folder inside, some (.folder _) =>
    if names.isEmpty then top else top.putAt names (.folder inside)
  | item, _ => top.putAt names item

/-- The names that an absolute path leads through. -/
def namesOf (path : String) : List String := Path.namesOf (Path.components ⟨path⟩)

/-- The disk with a file, if it is there. -/
def addFile (d : Disk) (path : String) : IO Disk := do
  match ← readFile? path with
  | none => return d
  | some file => return { d with top := plant (.file file) d.top (namesOf path) }

/-- The disk with the files of a folder, but not those below it. -/
def addFolder (d : Disk) (path : String) : IO Disk := do
  try
    let inside ← readFolder (fun _ => false) path
    let mut d := { d with top := plant (.folder .empty) d.top (namesOf path) }
    for (file, contents) in inside.allFiles ⟨path⟩ do
      d := { d with top := plant (.file ⟨contents, 0⟩) d.top (namesOf file.text) }
    return d
  catch _ => return d

/-- A path from the top. -/
def fromTop (here : String) (p : Path) : String := ((Path.join ⟨here⟩ p).normal).text

/-- The paths that a command names. -/
def pathsOf : Command → List Path
  | .newRegistry o => o.folder?.toList
  | .add o => o.registry?.toList ++ o.files
  | .newHelper o => o.folder?.toList ++ o.registry?.toList
  | .use o => o.file :: o.registry?.toList
  | .remove o => o.registry?.toList
  | .delete o => o.registry?.toList
  | .cleanUp o => o.registry?.toList
  | .memory (.label path _) => [path]
  | .memory (.forget path) => [path]
  | _ => []

/-- The disk with all that a command may look at. -/
def readDisk (here : String) (environment? : String → Option String) (clock : Stamp)
    (a : Arguments) : IO Disk := do
  let start : Disk := { workingFolder := some (namesOf here), now := clock.toNat * 1000000 }
  let mut d := { start with top := plant (.folder .empty) start.top (namesOf here) }
  let root ← try pure (← IO.FS.realPath (fromTop here a.root)).toString catch _ => return d
  for folder in Path.ancestors ⟨root⟩ do
    d ← addFolder d folder.text
  let preferences? := preferencesFile? ⟨d, environment?, clock⟩ a.preferences?
  for file in a.config?.toList ++ preferences?.toList do
    d ← addFile d (fromTop here file)
  let config := match openSession ⟨d, environment?, clock⟩ a with
    | .ok s => s.place.config
    | .error _ => {}
  let tree ← readFolder (fun name => name != config.dependencyDir && name != ".git") root
  d := { d with top := plant (.folder tree) d.top (namesOf root) }
  let named := (pathsOf a.command).map (fromTop root)
  let remembered := match openSession ⟨d, environment?, clock⟩ a with
    | .ok s => s.place.store.preferences.registries.map (·.path.text)
    | .error _ => []
  for file in named ++ remembered do
    d ← addFile d file
  return d

/-- A change is made to the files. -/
def carryOut : DiskChange → IO Unit
  | .makeFolder path => IO.FS.createDirAll path.text
  | .write path (.text t) => IO.FS.writeFile path.text (String.ofList t)
  | .write path (.bytes b) => IO.FS.writeBinFile path.text ⟨b.toArray⟩
  | .remove path => IO.FS.removeFile path.text

/-- Lines are printed, styled for a terminal unless the environment says otherwise. -/
def printLines (stream : IO.FS.Stream) (lines : List Styled) : IO Unit := do
  let plain := (← IO.getEnv "NO_COLOR").isSome
  let styled := !plain && (← stream.isTty)
  for line in lines do
    stream.putStrLn (line.shown styled)

/-- The program run with the given words. -/
def run (words : List String) : IO UInt32 := do
  let here := (← IO.currentDir).toString
  let names := ["HOME", "XDG_CONFIG_HOME", "PAGE_REGISTRY_PREFS"]
  let values ← names.mapM fun name => return (name, ← IO.getEnv name)
  let environment? (name : String) := (values.lookup name).join
  let clock : Stamp := UInt64.ofInt (← Std.Time.Timestamp.now).toMillisecondsSinceUnixEpoch.val
  let before ← match Arguments.read words with
    | .ok a => readDisk here environment? clock a
    | .error _ => pure {}
  let reply := CommandLine.run ⟨before, environment?, clock⟩ words
  (before.changes reply.disk).forM carryOut
  printLines (← IO.getStdout) reply.output
  printLines (← IO.getStderr) reply.errors
  return UInt32.ofNat reply.exitCode

end Registrar.Main

/-- The program. -/
def main (words : List String) : IO UInt32 := Registrar.Main.run words
