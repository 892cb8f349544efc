import Registrar.Registry.Zones
import Registrar.Text.Splice

/-!
Removing helpers from a registry. Each class loses its import name, its fields, its accessor and its
export; names that share an import stay; runs of blank lines that are left behind close up.
-/

namespace Registrar

/-- What became of the classes that were to be removed. -/
structure RemovalReport where
  removed : List String := []
  /-- The classes of which the registry has no part. -/
  missing : List String := []
  deriving DecidableEq, Repr

namespace Removal

/-- The edits that take out the field, the accessor and the export of a class. -/
def memberEdits (config : Config) (t : Text) (z : Zones) (className : String) : List Edit :=
  let field := Naming.field config.fieldPrefix className
  let accessor? := z.accessorOf? className
  let exported := (accessor?.map (·.name)).getD (Naming.accessor className)
  ((z.fields.filter fun f => !f.isStatic && (f.name == field || f.type == className)).map
      fun f => .delete f.span) ++
    (accessor?.map fun a => .delete ⟨a.span.start, t.skipBlankLine a.span.stop⟩).toList ++
    ((exportSpan? t exported).map .delete).toList

/-- Whether the registry has a part of a class. -/
def isPresent (config : Config) (t : Text) (z : Zones) (className : String) : Bool :=
  z.importsName className || !(memberEdits config t z className).isEmpty

/-- The statement that imports a default name, or names in braces, or both. -/
def statement (default? : Option String) (names : Text) (specifier : String) : Text :=
  let braced : Text := "\x7b ".toList ++ names ++ " \x7d".toList
  let what : Text := match default? with
    | some d => if names.isEmpty then d.toList else d.toList ++ ", ".toList ++ braced
    | none => braced
  "import ".toList ++ what ++ " from '".toList ++ specifier.toList ++ "';".toList

/-- The edit that takes the target names out of an import, if it binds any of them. -/
def pruneImport? (t : Text) (targets : List String) (i : Import) : Option Edit :=
  let hit (name : String) := targets.contains name
  let defaultHit := i.default?.any hit
  let kept := i.bindings.filter fun b => !hit b.imported && !hit b.bound
  let keptDefault := i.default?.filter fun _ => !defaultHit
  if !defaultHit && kept.length == i.bindings.length then none
  else if kept.isEmpty && keptDefault.isNone then some (.delete i.span)
  else
    let names := Text.join ", ".toList (kept.map (·.raw.toList))
    match i.bindingsSpan, defaultHit with
    | some span, false => some (.replace span (' ' :: names ++ [' ']))
    | _, _ =>
      let ending := if (t.slice i.span).finishesWith ['\n'] then ['\n'] else []
      some (.replace i.span (statement keptDefault names i.specifier ++ ending))

/-- The edits that take out classes, those of their members first. -/
def edits (config : Config) (t : Text) (z : Zones) (classes removed : List String) : List Edit :=
  classes.flatMap (memberEdits config t z) ++ z.imports.filterMap (pruneImport? t removed)

/-- The text with runs of blank lines closed up to one. -/
def closeUp (t : Text) : Text := Recognition.blankRun.replaceAll ['\n', '\n'] t

/-- What becomes of the classes, and the new text if anything is taken out. -/
def remove (config : Config) (t : Text) (classes : List String) : RemovalReport × Option Text :=
  let z := Zones.ofText t
  let present := isPresent config t z
  let report : RemovalReport := ⟨classes.filter present, classes.filter (!present ·)⟩
  match edits config t z classes report.removed with
  | [] => (report, none)
  | es => (report, some (closeUp (Edit.applyAll es t)))

end Removal
end Registrar
