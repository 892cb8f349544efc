import Registrar.Config.Basic
import Registrar.Json.Value
import Registrar.Path.Basic

/-!
What a validation finds: each finding is about one file, has a weight, and says what is wrong.
-/

namespace Registrar

/-- The weight of a finding. -/
inductive Severity where
  | error
  | warning
  | info
  deriving DecidableEq, Repr

namespace Severity

/-- The place of a weight; the heaviest comes first. -/
def rank : Severity → Nat
  | .error => 0
  | .warning => 1
  | .info => 2

/-- The word for a weight. -/
def word : Severity → String
  | .error => "error"
  | .warning => "warning"
  | .info => "info"

end Severity

/-- What is wrong with a file. -/
inductive Issue where
  /-- A registry lies below the folder of another one or beside it. -/
  | nested (other : Path)
  /-- A registry imports a class from a file that is gone. -/
  | orphaned (className specifier : String)
  /-- A helper imports its own accessor from a registry. -/
  | circular (accessor : String) (registry : Path)
  /-- Another file declares the same class. -/
  | duplicate (className : String) (other : Path)
  /-- No registry has the helper. -/
  | unregistered (className : String)
  /-- A helper file declares no class. -/
  | unresolved (guess : String)
  /-- A remembered registry is gone. -/
  | stale (label : String)
  deriving DecidableEq, Repr

namespace Issue

/-- The weight of an issue; nesting is an error where the settings prevent it. -/
def severity (config : Config) : Issue → Severity
  | .nested _ => if config.preventNesting then .error else .warning
  | .orphaned .. => .error
  | .circular .. => .error
  | .duplicate .. => .warning
  | .unregistered _ => .info
  | .unresolved _ => .warning
  | .stale _ => .warning

/-- What the user is told. -/
def message : Issue → String
  | .nested other => "nested with registry " ++ other.text
  | .orphaned className specifier =>
    className ++ " is imported from '" ++ specifier ++ "', which no longer exists"
  | .circular accessor registry =>
    "imports its own accessor " ++ accessor ++ " from " ++ registry.text
  | .duplicate className other => "class " ++ className ++ " is also declared in " ++ other.text
  | .unregistered className => className ++ " is not registered in any registry"
  | .unresolved guess => "no class declaration found (file name suggests " ++ guess ++ ")"
  | .stale label => "remembered registry '" ++ label ++ "' no longer exists"

/-- The kind of an issue and what it is about, by name. -/
def members : Issue → List (String × String)
  | .nested other => [("kind", "nested_registry"), ("other", other.text)]
  | .orphaned className specifier =>
    [("kind", "orphaned_entry"), ("class_name", className), ("specifier", specifier)]
  | .circular accessor registry =>
    [("kind", "circular_import"), ("accessor", accessor), ("registry", registry.text)]
  | .duplicate className other =>
    [("kind", "duplicate_class"), ("class_name", className), ("other", other.text)]
  | .unregistered className => [("kind", "unregistered_helper"), ("class_name", className)]
  | .unresolved guess => [("kind", "unresolved_class"), ("guess", guess)]
  | .stale label => [("kind", "stale_preference"), ("label", label)]

end Issue

/-- One thing that is wrong. -/
structure Finding where
  file : Path
  severity : Severity
  issue : Issue
  deriving DecidableEq, Repr

namespace Finding

/-- An issue of a file, with its weight. -/
def of (config : Config) (file : Path) (issue : Issue) : Finding :=
  ⟨file, issue.severity config, issue⟩

/-- Findings in the order of their weights, and then of their files. -/
def order (a b : Finding) : Ordering :=
  (compare a.severity.rank b.severity.rank).then (a.file.order b.file)

/-- The members of a finding by name, as they are written. -/
def members (f : Finding) : List (String × String) :=
  [("file", f.file.text), ("severity", f.severity.word)] ++ f.issue.members ++
    [("message", f.issue.message)]

/-- The finding as a JSON value. -/
def value (f : Finding) : Json.Value :=
  .ofMembers (f.members.map fun (name, s) => (name, .ofString s))

end Finding
end Registrar
