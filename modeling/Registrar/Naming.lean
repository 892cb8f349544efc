import Registrar.Config.Basic
import Registrar.Letter.Case
import Registrar.Path.Basic

/-!
Names that follow from other names: the class of a helper from what the user typed, its field, its
accessor, its variable and its file from the class. A suffix is recognised whatever the case of its
ASCII letters.
-/

namespace Registrar.Naming

/-- Whether the text ends with the suffix, ASCII case aside. -/
def hasSuffix (t suffix : Text) : Bool :=
  suffix.length ≤ t.length &&
    (t.drop (t.length - suffix.length)).map Char.toLower == suffix.map Char.toLower

/-- The trimmed name, with the suffix behind it unless it has it already. -/
def canonical (suffix input : String) : String :=
  let name := Text.trim input.toList
  if hasSuffix name suffix.toList then String.ofList name
  else String.ofList (name ++ suffix.toList)

/-- The name without the suffix, unless nothing else is in it. -/
def withoutSuffix (suffix name : String) : String :=
  let t := name.toList
  if !suffix.isEmpty && suffix.toList.length < t.length && hasSuffix t suffix.toList then
    String.ofList (t.take (t.length - suffix.toList.length))
  else name

/-- The text with its first character in lower case. -/
def lowerFirst : Text → Text
  | [] => []
  | c :: rest => Letter.lower c ++ rest

/-- The text with every capital in lower case behind a separator. -/
def separateCapitals (separator : Char) (t : Text) : Text :=
  t.flatMap fun c => if Letter.isUpper c then separator :: Letter.lower c else [c]

/-- The words of a name, the first in lower case, with a separator before each of the others. -/
def separated (separator : Char) : Text → Text
  | [] => []
  | c :: rest => Letter.lower c ++ separateCapitals separator rest

/-- A name in capitals and small letters spelled in another style. -/
def inStyle (style : CaseStyle) (name : String) : String :=
  match style with
  | .pascal => name
  | .camel => String.ofList (lowerFirst name.toList)
  | .kebab => String.ofList (separated '-' name.toList)
  | .snake => String.ofList (separated '_' name.toList)

/-- The private field that keeps a helper. -/
def field (fieldPrefix className : String) : String := fieldPrefix ++ inStyle .camel className

/-- The method that hands out a helper. -/
def accessor (className : String) : String :=
  "get" ++ String.ofList (Letter.raiseFirst className.toList)

/-- The variable that holds a helper where it is used. -/
def variableOf (className : String) : String := inStyle .camel className

/-- The name of a class's file without its extension. -/
def fileStem (config : Config) (className : String) : String :=
  inStyle config.fileCase (withoutSuffix config.classSuffix className)

/-- A file name without the extension, if it has it. -/
def withoutExtension (extension fileName : String) : String :=
  match Text.dropBack? fileName.toList extension.toList with
  | some stem => String.ofList stem
  | none => fileName

/-- The words of a file name run together, each with a capital in front. -/
def pascal (isSeparator : Char → Bool) (t : Text) : Text :=
  (Text.splitOn isSeparator t).flatMap Letter.raiseFirst

/-- The class that a file is named after. -/
def guessClass (config : Config) (file : Path) : String :=
  let name := file.fileName?.getD ""
  let stem := withoutExtension config.sourceExtension (withoutExtension config.helperExtension name)
  let isSeparator (c : Char) := c == '-' || c == '_' || c == '.'
  canonical config.classSuffix (String.ofList (pascal isSeparator stem.toList))

/-- The name of a file, or the whole path when it ends in none. -/
def displayName (file : Path) : String := file.fileName?.getD file.text

end Registrar.Naming
