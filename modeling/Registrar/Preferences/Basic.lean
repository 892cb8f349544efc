import Registrar.Path.Basic
import Registrar.Sorted

/-!
The registries that were worked with, each with a label and the moment of its last use, and the
order in which helpers are offered. A new moment is later than every one that is kept, so the list
by moments is a list by last use.
-/

namespace Registrar

/-- A moment in milliseconds, in 64 bits. -/
abbrev Stamp := UInt64

/-- A registry that is remembered. -/
structure Remembered where
  path : Path
  label : String
  lastUsed : Stamp
  deriving DecidableEq, Repr

/-- The order in which helpers are offered. -/
inductive HelperOrder where
  | name
  | path
  /-- The last written file first. -/
  | modified
  deriving DecidableEq, Repr

namespace HelperOrder

/-- All orders, as they are offered. -/
def every : List HelperOrder := [.name, .path, .modified]

/-- What the user is told. -/
def words : HelperOrder → String
  | .name => "class name"
  | .path => "file path"
  | .modified => "recently modified"

/-- The word that stands for an order in documents and arguments. -/
def key : HelperOrder → String
  | .name => "name"
  | .path => "path"
  | .modified => "modified"

/-- The order that a word stands for. -/
def ofKey? (key : String) : Option HelperOrder := every.find? (·.key == key)

end HelperOrder

/-- What is remembered. -/
structure Preferences where
  /-- The registries in the order in which they were first remembered. -/
  registries : List Remembered := []
  order : HelperOrder := .name
  deriving DecidableEq, Repr

namespace Preferences

/-- The registries, the last used one first. -/
def list (p : Preferences) : List Remembered :=
  sorted (fun a b => b.lastUsed ≤ a.lastUsed) p.registries

/-- The registry at a path. -/
def get? (p : Preferences) (path : Path) : Option Remembered :=
  p.registries.find? (·.path.same path)

/-- The latest moment that is kept. -/
def newest (p : Preferences) : Stamp := p.registries.foldl (fun n r => max n r.lastUsed) 0

/-- The moment of a use at the clock's `now`: later than all that are kept. -/
def nextStamp (p : Preferences) (now : Stamp) : Stamp := max now (p.newest + 1)

/-- The label of a registry that was given none: the name of its folder. -/
def defaultLabel (path : Path) : String :=
  (path.parent?.bind Path.fileName?).getD path.text

/-- A list with the first registry at a path changed, or one more registry. -/
def change (path : Path) (touch : Remembered → Remembered) (new : Remembered) :
    List Remembered → List Remembered
  | [] => [new]
  | r :: rest => if r.path.same path then touch r :: rest else r :: change path touch new rest

/-- A registry has just been used; it keeps its label unless one is given. -/
def upsert (p : Preferences) (now : Stamp) (path : Path) (label? : Option String) : Preferences :=
  let stamp := p.nextStamp now
  { p with
    registries := change path
      (fun r => { r with lastUsed := stamp, label := label?.getD r.label })
      ⟨path, label?.getD (defaultLabel path), stamp⟩ p.registries }

/-- Whether a registry is remembered. -/
def remembers (p : Preferences) (path : Path) : Bool := p.registries.any (·.path.same path)

/-- A registry is forgotten. -/
def remove (p : Preferences) (path : Path) : Preferences :=
  { p with registries := p.registries.filter (!·.path.same path) }

/-- All registries are forgotten. -/
def clear (p : Preferences) : Preferences := { p with registries := [] }

/-- Helpers are to be offered in another order. -/
def setOrder (p : Preferences) (order : HelperOrder) : Preferences := { p with order }

end Preferences
end Registrar
