import Registrar.Config.Basic
import Registrar.Toml.Reader

/-!
Settings as a TOML document. Each setting has a key; keys that are missing leave their settings as
they are by default, and keys that are unknown are passed over.
-/

namespace Registrar.Config

open Toml

/-- The value under a key. -/
def entry? (es : Entries) (key : String) : Option Value := es.lookup key

/-- The string under a key. -/
def stringAt (es : Entries) (key default : String) : Except Fault String :=
  match entry? es key with
  | none => .ok default
  | some (.string s) => .ok s
  | some _ => .error (.mistyped key)

/-- The string that may be under a key. -/
def stringAt? (es : Entries) (key : String) : Except Fault (Option String) :=
  match entry? es key with
  | none => .ok none
  | some (.string s) => .ok (some s)
  | some _ => .error (.mistyped key)

/-- The truth value under a key. -/
def booleanAt (es : Entries) (key : String) (default : Bool) : Except Fault Bool :=
  match entry? es key with
  | none => .ok default
  | some (.boolean b) => .ok b
  | some _ => .error (.mistyped key)

/-- The strings under a key. -/
def stringsAt (es : Entries) (key : String) : Except Fault (List String) :=
  match entry? es key with
  | none => .ok []
  | some (.array items) => items.mapM fun
    | .string s => .ok s
    | _ => .error (.mistyped key)
  | some _ => .error (.mistyped key)

/-- The word under a key, written as a string or as the key of an empty table. -/
def wordAt? (es : Entries) (key : String) : Except Fault (Option String) :=
  match entry? es key with
  | none => .ok none
  | some (.string s) => .ok (some s)
  | some (.table .inline [(s, .table _ [])]) => .ok (some s)
  | some (.table .inline _) => .error (.mistyped key)
  | some (.table _ ((s, .table _ []) :: _)) => .ok (some s)
  | some _ => .error (.mistyped key)

/-- The choice among named ones under a key. -/
def choiceAt {α : Type} (es : Entries) (key : String) (choices : List (String × α)) (default : α) :
    Except Fault α := do
  match ← wordAt? es key with
  | none => return default
  | some s =>
    match choices.lookup s with
    | some a => return a
    | none => throw (.mistyped key)

end Registrar.Config

namespace Registrar

/-- The names of the styles of file names. -/
def CaseStyle.names : List (String × CaseStyle) :=
  [("pascal", .pascal), ("camel", .camel), ("kebab", .kebab), ("snake", .snake)]

/-- The names of the styles of imports. -/
def ImportStyle.names : List (String × ImportStyle) :=
  [("relative", .relative), ("absolute", .absolute)]

/-- The settings of a document. -/
def Config.ofEntries (es : Toml.Entries) : Except Toml.Fault Config := do
  let default : Config := {}
  return {
    helperExtension := ← stringAt es "helper_extension" default.helperExtension
    registryExtension := ← stringAt es "registry_extension" default.registryExtension
    sourceExtension := ← stringAt es "source_extension" default.sourceExtension
    classSuffix := ← stringAt es "class_suffix" default.classSuffix
    fieldPrefix := ← stringAt es "field_prefix" default.fieldPrefix
    fileCase := ← choiceAt es "file_case" CaseStyle.names default.fileCase
    classNamePattern := ← stringAt es "class_name_pattern" default.classNamePattern
    fileNamePattern := ← stringAt es "file_name_pattern" default.fileNamePattern
    preventNesting := ← booleanAt es "prevent_nesting" default.preventNesting
    importPrefix := ← stringAt es "import_prefix" default.importPrefix
    importStyle := ← choiceAt es "import_style" ImportStyle.names default.importStyle
    registryTemplate := ← stringAt? es "registry_template"
    helperTemplate := ← stringAt? es "helper_template"
    contextType := ← stringAt es "context_type" default.contextType
    contextModule := ← stringAt es "context_module" default.contextModule
    contextField := ← stringAt es "context_field" default.contextField
    dependencyDir := ← stringAt es "dependency_dir" default.dependencyDir
    exclude := ← stringsAt es "exclude" }

/-- The settings that a text writes. -/
def Config.read (t : Text) : Except Toml.Fault Config := Toml.read t >>= Config.ofEntries

end Registrar
