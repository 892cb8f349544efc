import Registrar.Pattern.Reader
import Registrar.Pattern.Reach
import Registrar.Glob
import Registrar.Text.Search

/-!
The settings of a project: how classes and files are named, how imports are written, which files
belong to it, and the shapes that are generated.
-/

namespace Registrar

/-- How a class name is spelled as a file name. -/
inductive CaseStyle where
  | pascal
  | camel
  | kebab
  | snake
  deriving DecidableEq, Repr

/-- How imports refer to files. -/
inductive ImportStyle where
  /-- From the importing file. -/
  | relative
  /-- From the root, behind a fixed prefix. -/
  | absolute
  deriving DecidableEq, Repr

/-- The settings of a project. -/
structure Config where
  /-- What the names of new helper files end in. -/
  helperExtension : String := ".page.ts"
  /-- What the names of new registry files end in. -/
  registryExtension : String := ".ts"
  /-- What the names of source files end in. -/
  sourceExtension : String := ".ts"
  /-- What the names of helper classes end in. -/
  classSuffix : String := "Page"
  /-- What the names of private fields begin with. -/
  fieldPrefix : String := "_"
  fileCase : CaseStyle := .kebab
  classNamePattern : String := "^[A-Z][A-Za-z0-9]*$"
  fileNamePattern : String := "^[A-Za-z][A-Za-z0-9_.-]*$"
  /-- A registry above or below another one needs a confirmation. -/
  preventNesting : Bool := true
  importPrefix : String := ""
  importStyle : ImportStyle := .relative
  /-- The text of a new registry, with a placeholder for its name. -/
  registryTemplate : Option String := none
  /-- The text of a new helper, with a placeholder for its name. -/
  helperTemplate : Option String := none
  /-- The type of what every helper is built with. -/
  contextType : String := "Page"
  /-- The module that the context type comes from. -/
  contextModule : String := "@playwright/test"
  /-- The field of a registry that holds the context. -/
  contextField : String := "page"
  /-- The folder of foreign code, which is not walked. -/
  dependencyDir : String := "node_modules"
  /-- Globs of what is not walked. -/
  exclude : List String := []
  deriving DecidableEq, Repr

/-- What a name is the name of. -/
inductive NameKind where
  | className
  | fileName
  deriving DecidableEq, Repr

/-- The words for a kind of name. -/
def NameKind.words : NameKind → String
  | .className => "class name"
  | .fileName => "file name"

/-- Why a name is refused. -/
inductive NameFault where
  /-- There is no name. -/
  | empty (kind : NameKind)
  /-- The project's pattern for such names cannot be read. -/
  | badPattern (kind : NameKind) (fault : Pattern.Fault)
  /-- The name does not match the project's pattern. -/
  | mismatch (kind : NameKind) (name pattern : String)
  /-- The name of a helper has nothing in it. -/
  | blankHelper
  /-- The name of a helper is that of the context type. -/
  | contextType (name : String)
  deriving DecidableEq, Repr

/-- What the user is told. -/
def NameFault.message : NameFault → String
  | .empty kind => "The " ++ kind.words ++ " must not be empty"
  | .badPattern kind fault => "Invalid " ++ kind.words ++ " pattern: " ++ fault.message
  | .mismatch kind name pattern =>
    "'" ++ name ++ "' is not a valid " ++ kind.words ++ " (expected " ++ pattern ++ ")"
  | .blankHelper => "Class name must not be empty"
  | .contextType name => name ++ " is the context type's name"

/-- Why settings are refused. -/
inductive ConfigFault where
  /-- The pattern under `key` cannot be read. -/
  | badPattern (key pattern : String) (fault : Pattern.Fault)
  /-- A glob to exclude cannot be read. -/
  | badGlob (glob : String) (fault : Glob.Fault)
  deriving DecidableEq, Repr

/-- What the user is told. -/
def ConfigFault.message : ConfigFault → String
  | .badPattern key pattern _ => "Invalid " ++ key ++ " '" ++ pattern ++ "'"
  | .badGlob glob _ => "Invalid exclude pattern '" ++ glob ++ "'"

namespace Config

/-- A name checked against a pattern. -/
def checkName (kind : NameKind) (pattern name : String) : Except NameFault Unit :=
  if Text.isBlank name.toList then .error (.empty kind)
  else
    match Pattern.read pattern.toList with
    | .error fault => .error (.badPattern kind fault)
    | .ok p => if p.accepts name.toList then .ok () else .error (.mismatch kind name pattern)

/-- The name of a class, checked against the project's pattern. -/
def checkClassName (config : Config) (name : String) : Except NameFault Unit :=
  checkName .className config.classNamePattern name

/-- The name of a file without its extension, checked against the project's pattern. -/
def checkFileName (config : Config) (name : String) : Except NameFault Unit :=
  checkName .fileName config.fileNamePattern name

/-- All patterns and globs can be read. -/
def check (config : Config) : Except ConfigFault Unit := do
  pattern "class_name_pattern" config.classNamePattern
  pattern "file_name_pattern" config.fileNamePattern
  config.exclude.forM fun glob =>
    match Glob.read glob.toList with
    | .error fault => .error (.badGlob glob fault)
    | .ok _ => .ok ()
where
  /-- One pattern can be read. -/
  pattern (key text : String) : Except ConfigFault Unit :=
    match Pattern.read text.toList with
    | .error fault => .error (.badPattern key text fault)
    | .ok _ => .ok ()

/-- The globs that can be read. -/
def excludeGlobs (config : Config) : List Glob :=
  config.exclude.filterMap fun glob => (Glob.read glob.toList).toOption

/-- Whether a glob to exclude matches the path. -/
def excludes (config : Config) (path : String) : Bool :=
  config.excludeGlobs.any (·.accepts path.toList)

end Config
end Registrar
