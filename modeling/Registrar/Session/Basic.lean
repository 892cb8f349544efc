import Registrar.Dialogue.Talk
import Registrar.Path.Normal
import Registrar.Preferences.Store
import Registrar.Workspace.Basic

/-!
A session: a workspace, what is remembered, and a talk with the user. An inquiry asks and looks
around and can change nothing but the talk; an action changes the session and asks nothing.
-/

namespace Registrar

/-- A workspace with what is remembered and the time on the clock. -/
structure Workplace extends Workspace where
  store : Store
  clock : Stamp

/-- A workplace and a talk. -/
structure Session where
  place : Workplace
  talk : Talk := {}

/-- What is found out by asking and looking around. -/
abbrev Inquiry (α : Type) := ReaderT Workplace (ExceptT Failure (StateM Talk)) α

/-- What is done in a session; what was done before a failure stays done. -/
abbrev Action (α : Type) := ExceptT Failure (StateM Session) α

/-- Words are said in a session by saying them in its talk. -/
instance : MonadLift (StateM Talk) (StateM Session) where
  monadLift m := fun s =>
    let (a, talk) := m.run s.talk
    (a, { s with talk })

/-- A result, or the end of what is being done. -/
def Action.ofExcept {α : Type} (e : Except Failure α) : Action α := MonadExcept.ofExcept e

namespace Workspace

/-- A path as the user gave it, read from the root. -/
def resolve (w : Workspace) (p : Path) : Path := (w.root.join p).normal

/-- A path as it is shown: from the root if it lies below it. -/
def shown (w : Workspace) (p : Path) : String := ((p.below? w.root).getD p).text

end Workspace

namespace Workplace

/-- What is remembered is changed and written back; a failure to write does not undo the change. -/
def remember (w : Workplace) (change : Preferences → Preferences) :
    Except Failure Unit × Workplace :=
  let store := { w.store with preferences := change w.store.preferences }
  let (result, disk) := store.save w.disk
  (result, { w with store, disk })

/-- A registry has just been used. -/
def upsert (w : Workplace) (path : Path) (label? : Option String) :
    Except Failure Unit × Workplace :=
  w.remember (·.upsert w.clock path label?)

/-- A registry is forgotten; nothing is written if it was not remembered. -/
def forget (w : Workplace) (path : Path) : Except Failure Bool × Workplace :=
  if w.store.preferences.remembers path then
    let (result, w) := w.remember (·.remove path)
    (result.map fun _ => true, w)
  else (.ok false, w)

/-- One staged change. -/
def commit (w : Workplace) : Staged → Except Failure Unit × Workplace
  | .forget path =>
    let (result, w) := w.forget path
    (result.map fun _ => (), w)
  | .remember path label? => w.upsert path label?

end Workplace

namespace Action

/-- The workplace. -/
def place : Action Workplace := return (← get).place

/-- A change of the workplace that may fail. -/
def change {α : Type} (f : Workplace → Except Failure α × Workplace) : Action α := do
  let s ← get
  let (result, place) := f s.place
  set { s with place }
  ofExcept result

/-- A change of the disk that happens or fails as a whole. -/
def changeDisk {α : Type} (f : Workplace → Except Failure (α × Disk)) : Action α := do
  let s ← get
  let (a, disk) ← ofExcept (f s.place)
  set { s with place := { s.place with disk } }
  return a

/-- A deed that changes the disk at one path. -/
def atPath (deed : Deed) (path : Path) (f : Disk → Except FileError Disk) : Action Unit :=
  changeDisk fun w => ((f w.disk).mapError (Failure.file deed path)).map ((), ·)

end Action
end Registrar
