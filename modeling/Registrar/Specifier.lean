import Registrar.Naming
import Registrar.Path.Normal

/-!
Module specifiers. A file is named from another one by the way between them, or from the root behind
a prefix; a specifier is read back as a path that may lack its extension or stand for a folder.
-/

namespace Registrar.Specifier

/-- The steps that lead somewhere. -/
def named (p : Path) : List Component := p.components.filter (· != .here)

/-- The text of a step. -/
def stepText : Component → Text
  | .top => ['/']
  | .here => ['.']
  | .up => ['.', '.']
  | .name n => n.toList

/-- The number of steps that two ways share at their front. -/
def common : List Component → List Component → Nat
  | a :: rest, b :: rest' => if a = b then common rest rest' + 1 else 0
  | _, _ => 0

/-- The way from a folder to a file: up to the folder that both lie in, and down from there. -/
def way (folder file : Path) : Text :=
  let steps := named folder
  let target := named file
  let shared := common steps target
  Text.join ['/']
    (List.replicate (steps.length - shared) ['.', '.'] ++ (target.drop shared).map stepText)

/-- A text without the extension, if it has it. -/
def dropExtension (extension : String) (t : Text) : Text :=
  (Text.dropBack? t extension.toList).getD t

/-- The specifier of a file relative to the importing file. -/
def relative (extension : String) (importer file : Path) : String :=
  let folder := importer.parent?.getD ⟨"/"⟩
  let stem := dropExtension extension (way folder file)
  String.ofList (if stem.head? == some '.' then stem else '.' :: '/' :: stem)

/-- The specifier of a file in the project's style; a file outside the root is named relatively. -/
def of (config : Config) (root importer file : Path) : String :=
  match config.importStyle, file.below? root with
  | .absolute, some rest =>
    let names := rest.components.filterMap fun
      | .name n => some n.toList
      | _ => none
    config.importPrefix ++
      String.ofList (dropExtension config.sourceExtension (Text.join ['/'] names))
  | _, _ => relative config.sourceExtension importer file

/-- The path that a specifier stands for; a package stands for none. -/
def base? (config : Config) (root importer : Path) (specifier : String) : Option Path :=
  if specifier.toList.head? == some '.' then
    importer.parent?.map fun folder => (folder.join ⟨specifier⟩).normal
  else if config.importPrefix.isEmpty then none
  else
    (Text.dropFront? specifier.toList config.importPrefix.toList).map fun rest =>
      (root.join ⟨String.ofList rest⟩).normal

/-- The path with the source extension behind it. -/
def withExtension (config : Config) (base : Path) : Path := ⟨base.text ++ config.sourceExtension⟩

/-- The index file of a folder. -/
def indexOf (config : Config) (base : Path) : Path := base.child ("index" ++ config.sourceExtension)

/-- The files that a path may stand for, in the order in which they are tried. -/
def targets (config : Config) (base : Path) : List Path :=
  [base, withExtension config base, indexOf config base]

/-- Whether a path stands for the file. -/
def baseMatches (config : Config) (base file : Path) : Bool :=
  file.normal.same base || file.normal == withExtension config base ||
    file.normal.same (indexOf config base)

end Registrar.Specifier
