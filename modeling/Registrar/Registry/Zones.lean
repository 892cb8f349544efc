import Registrar.Registry.Recognition
import Registrar.Text.Line

/-!
The zones of a registry's text: its imports, its private fields and its accessors, each with the
bytes that it takes. The zones are found by patterns from the start of a line; what is laid out
otherwise is left alone.
-/

namespace Registrar

/-- One name in the braces of an import. -/
structure Binding where
  /-- The name that the module exports. -/
  imported : String
  /-- The name it has in the importing file. -/
  bound : String
  /-- The whole entry as written. -/
  raw : String
  deriving DecidableEq, Repr

/-- An import of names from a module. -/
structure Import where
  default? : Option String
  bindings : List Binding
  specifier : String
  /-- The statement with its line ending. -/
  span : Span
  /-- What stands between the braces, if there are any. -/
  bindingsSpan : Option Span
  deriving DecidableEq, Repr

/-- Whether a name is the default name, or a name in braces there or here. -/
def Import.binds (i : Import) (name : String) : Bool :=
  i.default? == some name || i.bindings.any fun b => b.imported == name || b.bound == name

/-- A private field. -/
structure Field where
  name : String
  type : String
  isStatic : Bool
  /-- The line with its ending. -/
  span : Span
  deriving DecidableEq, Repr

/-- A public method. -/
structure Accessor where
  name : String
  returns : Option String
  /-- From the start of the signature's line to the end of the line of its last brace. -/
  span : Span
  deriving DecidableEq, Repr

/-- What is known of a registry's text. -/
structure Zones where
  className : Option String
  imports : List Import
  fields : List Field
  accessors : List Accessor
  deriving DecidableEq, Repr

namespace Text

/-- The bytes up to the brace that closes `depth` open ones, itself included. -/
def closing? : Nat → Text → Option Nat
  | _, [] => none
  | depth, c :: rest =>
    if c == '\x7b' then (closing? (depth + 1) rest).map (c.utf8Size + ·)
    else if c == '\x7d' then
      if depth ≤ 1 then some c.utf8Size else (closing? (depth - 1) rest).map (c.utf8Size + ·)
    else (closing? depth rest).map (c.utf8Size + ·)

/-- The end of the line of the brace that closes the one at byte `place`. -/
def blockEnd? (t : Text) (place : Nat) : Option Nat :=
  if (t.before place).size != place then none
  else
    match t.after place with
    | [] => none
    | c :: rest =>
      if c == '\x7b' then (closing? 1 rest).map fun n => t.lineEnd (place + c.utf8Size + n)
      else none

end Text

namespace Zones

/-- One entry between the braces of an import. -/
def binding (raw : Text) : Binding :=
  let entry := ((Text.dropFront? raw "type ".toList).map Text.trim).getD raw
  let (imported, bound) := match Text.cut? " as ".toList entry with
    | some (imported, bound) => (Text.trim imported, Text.trim bound)
    | none => (entry, entry)
  ⟨String.ofList imported, String.ofList bound, String.ofList raw⟩

/-- The entries between the braces of an import. -/
def bindings (inner : Text) : List Binding :=
  (((Text.splitOn (· == ',') inner).map Text.trim).filter (!·.isEmpty)).map binding

/-- The import that a match stands for; one that names nothing is none. -/
def import? (m : Pattern.Match) : Option Import :=
  let default? := (m.textOf? "default").map String.ofList
  let named := m.textOf? "named"
  if default?.isNone && named.isNone then none
  else
    some {
      default?, bindings := (named.map bindings).getD [],
      specifier := String.ofList ((m.textOf? "specifier").getD []),
      span := m.span, bindingsSpan := m.spanOf? "named" }

/-- The field that a match stands for. -/
def field (m : Pattern.Match) : Field where
  name := String.ofList ((m.textOf? "name").getD [])
  type := String.ofList (Text.trim ((m.textOf? "type").getD []))
  isStatic := (m.textOf? "static").isSome
  span := m.span

/-- The accessor that a match stands for, if its body is closed. -/
def accessor? (t : Text) (m : Pattern.Match) : Option Accessor :=
  (t.blockEnd? (m.stop.offset - 1)).map fun stop => {
    name := String.ofList ((m.textOf? "name").getD [])
    returns := (m.textOf? "returns").map String.ofList
    span := ⟨m.start.offset, stop⟩ }

/-- The zones of a text. -/
def ofText (t : Text) : Zones where
  className := Recognition.className? t
  imports := (Recognition.importStatement.findAll t).filterMap import?
  fields := (Recognition.fieldDeclaration.findAll t).map field
  accessors := (Recognition.accessorSignature.findAll t).filterMap (accessor? t)

/-- Where the last import ends. -/
def lastImportEnd (z : Zones) : Option Nat := z.imports.getLast?.map (·.span.stop)

/-- The first import that binds a name. -/
def importOf? (z : Zones) (name : String) : Option Import := z.imports.find? (·.binds name)

/-- Whether an import binds a name. -/
def importsName (z : Zones) (name : String) : Bool := z.imports.any (·.binds name)

/-- Whether there is a field with the name. -/
def hasField (z : Zones) (name : String) : Bool := z.fields.any (·.name == name)

/-- The first accessor with the name. -/
def accessorNamed? (z : Zones) (name : String) : Option Accessor :=
  z.accessors.find? (·.name == name)

/-- The first accessor that returns a type. -/
def accessorReturning? (z : Zones) (type : String) : Option Accessor :=
  z.accessors.find? (·.returns == some type)

/-- The accessor of a class: the one that returns it, or else the one that is named for it. -/
def accessorOf? (z : Zones) (className : String) : Option Accessor :=
  (z.accessorReturning? className).or (z.accessorNamed? (Naming.accessor className))

/-- The accessors that return an imported class, with that class: the registered helpers. -/
def helpers (z : Zones) : List (Accessor × String) :=
  z.accessors.filterMap fun a =>
    match a.returns with
    | some type => if z.importsName type then some (a, type) else none
    | none => none

end Zones

/-- The line of the first export with the name. -/
def exportSpan? (t : Text) (accessor : String) : Option Span :=
  ((Recognition.exportOf accessor).find? t).map fun m =>
    ⟨m.start.offset, t.lineEnd m.start.offset⟩

end Registrar
