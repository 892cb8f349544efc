import Registrar.Registry.Zones
import Registrar.Text.Splice

/-!
Using a helper in a source file. The call goes on a line of its own, never above the imports, and
the accessor is imported from the registry unless its name is bound already.
-/

namespace Registrar.Usage

/-- The indentation of a statement at byte `place`: that of the last line above with something on
it, one step deeper when that line opens a block. -/
def indentation (t : Text) (place : Nat) : Text :=
  match (Text.lines (t.before place)).reverse.find? (!Text.isBlank ·) with
  | none => []
  | some line =>
    let margin := line.takeWhile Recognition.isGap
    if Text.finishesWith (Text.trimBack line) ['\x7b'] then
      margin ++ (if margin.head? == some '\t' then ['\t'] else Source.indent.toList)
    else margin

/-- The edit that imports the accessor: one more name in an import from the registry, or a new one
after the last import. -/
def importEdit (t : Text) (z : Zones) (specifier accessor : String) : Edit :=
  let shared? := (z.imports.find? fun i => i.specifier == specifier && i.bindingsSpan.isSome).bind
    fun i => i.bindingsSpan.map fun span => (i, span)
  match shared? with
  | some (i, span) =>
    let names := i.bindings.map (·.raw.toList) ++ [accessor.toList]
    .replace span (' ' :: Text.join ", ".toList names ++ [' '])
  | none =>
    let place := z.lastImportEnd.getD 0
    .insert place (t.breakBefore place ++ (Source.importLine accessor specifier).toList ++
      (if z.imports.isEmpty then ['\n'] else []))

/-- Where the call goes: at the start of the line, or after the imports if those come later. -/
def place (t : Text) (z : Zones) (line : Nat) : Nat :=
  max (t.lineOffset line) (z.lastImportEnd.getD 0)

/-- The text with a call of the accessor before the 1-indexed line, and the accessor imported. -/
def insert (t : Text) (line : Nat) (specifier accessor className : String) : Text :=
  let z := Zones.ofText t
  let offset := place t z line
  let call := Source.usageLine (String.ofList (indentation t offset)) (Naming.variableOf className)
    accessor
  let callEdit := Edit.insert offset (t.breakBefore offset ++ call.toList)
  let edits := if z.importsName accessor then [callEdit]
    else [importEdit t z specifier accessor, callEdit]
  Edit.applyAll edits t

end Registrar.Usage
