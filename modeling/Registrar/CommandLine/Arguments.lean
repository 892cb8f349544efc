import Registrar.CommandLine.Grammar
import Registrar.Workflow.Creation
import Registrar.Workflow.Memory
import Registrar.Workflow.Use

/-!
The commands of the program and what may be given with them.
-/

namespace Registrar.CommandLine

/-- A command with all that was given. -/
inductive Command where
  | newRegistry (options : NewRegistry)
  | add (options : Adding)
  | newHelper (options : NewHelper)
  | use (options : Using)
  | remove (options : Removing)
  | delete (options : Discarding)
  | cleanUp (options : Discarding)
  /-- The report may be printed as JSON, and errors in it may be failures. -/
  | validate (json strict : Bool)
  | memory (command : MemoryCommand)
  | scan

/-- The words of a command line. -/
structure Arguments where
  root : Path := ⟨"."⟩
  config? : Option Path := none
  preferences? : Option Path := none
  verbose : Bool := false
  command : Command

/-! ### Grammars -/

/-- The flags that may be given with every command. -/
def globalFlags : List Flag :=
  [{ name := "root", value? := some .path }, { name := "config", value? := some .path },
    { name := "prefs", value? := some .path }, { name := "verbose", letter? := some 'v' }]

/-- The flag that names a registry. -/
def registryFlag : Flag := { name := "registry", letter? := some 'r', value? := some .path }

/-- The flag that confirms everything. -/
def yesFlag : Flag := { name := "yes", letter? := some 'y' }

/-- A flag with a word. -/
def wordFlag (name : String) (letter : Char) : Flag :=
  { name, letter? := some letter, value? := some .word }

/-- The commands with what may stand behind their names. -/
def commands : List (String × Grammar) := [
  ("create-registry", {
    flags := [wordFlag "name" 'n', wordFlag "label" 'l'], operands := [{ kind := .path }] }),
  ("add", { flags := [registryFlag], operands := [{ kind := .path }], repeats := true }),
  ("new-helper", {
    flags := [wordFlag "name" 'n', { name := "register" }, { name := "no-register" }, registryFlag]
    operands := [{ kind := .path }] }),
  ("use", {
    flags := [{ name := "line", letter? := some 'l', value? := some .count },
      wordFlag "accessor" 'a', registryFlag]
    operands := [{ kind := .path, required := true }] }),
  ("remove", {
    flags := [registryFlag, { name := "delete-file" }, yesFlag]
    operands := [{ kind := .word }], repeats := true }),
  ("delete-registry", { flags := [registryFlag, yesFlag] }),
  ("cleanup", { flags := [registryFlag, yesFlag] }),
  ("validate", { flags := [{ name := "json" }, { name := "strict" }] }),
  ("registries", { commands := ["list", "label", "forget", "clear", "sort"] }),
  ("scan", {})]

/-- The commands about remembered registries with what may stand behind their names. -/
def memoryCommands : List (String × Grammar) := [
  ("list", {}),
  ("label",
    { operands := [{ kind := .path, required := true }, { kind := .word, required := true }] }),
  ("forget", { operands := [{ kind := .path, required := true }] }),
  ("clear", { flags := [yesFlag] }),
  ("sort", { operands := [{ kind := .among (HelperOrder.every.map HelperOrder.key) }] })]

/-- What stands behind the name of one of the commands, the global flags among it. -/
def readCommand (commands : List (String × Grammar)) (name : String) (words : List String) :
    Except Stop Reading :=
  match commands.lookup name with
  | some g => Grammar.read { g with flags := globalFlags ++ g.flags } words
  | none => .error .usage

/-! ### Commands -/

/-- The path that is the value of a flag. -/
def Reading.path? (r : Reading) (name : String) : Option Path := (r.value? name).map Path.mk

/-- The first operand as a path. -/
def Reading.firstPath? (r : Reading) : Option Path := r.operands.head?.map Path.mk

/-- A registry and whether everything is confirmed. -/
def Reading.discarding (r : Reading) : Discarding := ⟨r.path? "registry", r.has "yes"⟩

/-- The command about remembered registries that was read. -/
def memoryCommand? (name : String) (r : Reading) : Option MemoryCommand :=
  match name, r.operands with
  | "list", _ => some .list
  | "label", [path, label] => some (.label ⟨path⟩ label)
  | "forget", [path] => some (.forget ⟨path⟩)
  | "clear", _ => some (.clear (r.has "yes"))
  | "sort", operands => some (.sort (operands.head?.bind HelperOrder.ofKey?))
  | _, _ => none

/-- The command that was read. -/
def command? (name : String) (r : Reading) : Option Command :=
  match name with
  | "create-registry" =>
    some (.newRegistry ⟨r.firstPath?, r.value? "name", r.value? "label"⟩)
  | "add" => some (.add ⟨r.path? "registry", r.operands.map Path.mk⟩)
  | "new-helper" =>
    let register? := if r.has "register" then some true
      else if r.has "no-register" then some false
      else none
    if r.has "register" && r.has "no-register" then none
    else some (.newHelper ⟨r.firstPath?, r.value? "name", register?, r.path? "registry"⟩)
  | "use" =>
    r.firstPath?.map fun file => .use {
      file, line := ((r.value? "line").bind countOf?).getD 1
      accessor? := r.value? "accessor", registry? := r.path? "registry" }
  | "remove" =>
    some (.remove ⟨r.path? "registry", r.operands, r.has "delete-file", r.has "yes"⟩)
  | "delete-registry" => some (.delete r.discarding)
  | "cleanup" => some (.cleanUp r.discarding)
  | "validate" => some (.validate (r.has "json") (r.has "strict"))
  | "scan" => some .scan
  | _ => none

/-- The arguments with a command; of the global flags given at several places the last place
counts. -/
def Arguments.of (readings : List Reading) (command : Command) : Arguments :=
  let inner := readings.reverse
  { root := (inner.findSome? (·.path? "root")).getD ⟨"."⟩
    config? := inner.findSome? (·.path? "config")
    preferences? := inner.findSome? (·.path? "prefs")
    verbose := inner.any (·.has "verbose")
    command }

/-- The arguments that words stand for. -/
def Arguments.read (words : List String) : Except Stop Arguments := do
  let whole : Grammar := { flags := globalFlags, commands := commands.map (·.1) }
  let outer ← whole.read words
  match outer.command? with
  | none => throw .usage
  | some (name, words) =>
    let r ← readCommand commands name words
    match r.command? with
    | some (memoryName, words) =>
      let inner ← readCommand memoryCommands memoryName words
      match memoryCommand? memoryName inner with
      | some command => return .of [outer, r, inner] (.memory command)
      | none => throw .usage
    | none =>
      if name == "registries" then return .of [outer, r] (.memory .list)
      else
        match command? name r with
        | some command => return .of [outer, r] command
        | none => throw .usage

end Registrar.CommandLine
