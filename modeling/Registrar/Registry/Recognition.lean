import Registrar.Pattern.Basic
import Registrar.Registry.Source
import Registrar.Text.Search

/-!
The patterns by which generated source is recognised: imports, private fields, public accessors,
class declarations and exports, each from the start of a line, and the signs of a registry. A file
is a registry for its text, never for its name.
-/

namespace Registrar.Recognition

open Pattern

/-- A space or a tab. -/
def isGap (c : Char) : Bool := c == ' ' || c == '\t'

/-- Spaces and tabs, or nothing. -/
def gap : Pattern := many true (one isGap)

/-- Spaces and tabs, at least one. -/
def space : Pattern := atLeastOnce (one isGap)

/-- A given word or sign. -/
def word (s : String) : Pattern := literal s.toList

/-- The start of a line. -/
def lineStart : Pattern := place Cursor.startsLine

/-- A line ending that need not be there. -/
def lineEnding : Pattern := next (optional (char '\r')) (optional (char '\n'))

/-- A character that an identifier may begin with. -/
def isNameStart (c : Char) : Bool := c.isAlpha || c == '_' || c == '$'

/-- A character of an identifier. -/
def isNamePart (c : Char) : Bool := Letter.isWord c || c == '$'

/-- An identifier. -/
def name : Pattern := next (one isNameStart) (many true (one isNamePart))

/-- A character of a type with members, arguments and array signs. -/
def isTypePart (c : Char) : Bool :=
  isNamePart c || c == '.' || c == '<' || c == '>' || c == '[' || c == ']'

/-- A quotation mark. -/
def isQuote (c : Char) : Bool := c == '\'' || c == '"'

/-- An import with a default name, names in braces or both, and its line ending. -/
def importStatement : Pattern := all [
  lineStart, gap, word "import", space,
  optional (next (word "type") space),
  optional (all [group "default" name, gap, optional (char ','), gap]),
  optional (all [char '\x7b', group "named" (many true (one (· != '\x7d'))), char '\x7d']),
  gap, word "from", space,
  one isQuote, group "specifier" (atLeastOnce (one fun c => !isQuote c)), one isQuote,
  gap, optional (char ';'), gap, lineEnding]

/-- A private field with its type and its line ending. -/
def fieldDeclaration : Pattern := all [
  lineStart, gap, word "private", space,
  optional (group "static" (next (word "static") space)),
  optional (next (word "readonly") space),
  group "name" name, gap, optional (one fun c => c == '?' || c == '!'), gap, char ':', gap,
  group "type" (next (one isFieldType) (many false (one isFieldType))),
  gap, optional (next (char '=') (many true (one fun c => c != ';' && c != '\n'))), char ';', gap,
  lineEnding]
where
  /-- A character of a field's type, alternatives included. -/
  isFieldType (c : Char) : Bool := isTypePart c || c == '|' || c == ' '

/-- A public method with at most one parameter, up to the brace that opens its body. -/
def accessorSignature : Pattern := all [
  lineStart, gap, word "public", space, group "name" name, gap, char '(', gap,
  optional (all [name, gap, optional (char '?'), gap, char ':', many true (one (· != ')'))]),
  char ')', gap,
  optional (all [char ':', gap, group "returns" (atLeastOnce (one isTypePart))]),
  gap, char '\x7b']

/-- A class declaration up to its name. -/
def classDeclaration : Pattern := all [
  lineStart, gap, optional (next (word "export") space), optional (next (word "default") space),
  optional (next (word "abstract") space), word "class", space, group "name" name]

/-- A closing brace at the start of a line. -/
def closingBrace : Pattern := next lineStart (char '\x7d')

/-- An exported constant with the given name. -/
def exportOf (accessor : String) : Pattern := all [
  lineStart, word "export", space, word "const", space, word accessor, place Cursor.splitsWord]

/-- The field that holds the one registry object. -/
def instanceField : Pattern := all [
  word "private", space, word "static", space, word "instance", gap,
  optional (one fun c => c == '?' || c == '!'), gap, char ':']

/-- The method that hands out the one registry object. -/
def instanceMethod : Pattern := all [
  optional (next (word "public") space), word "static", space, word "getInstance", gap, char '(']

/-- The exported function that hands out the one registry object. -/
def instanceExport : Pattern := all [
  lineStart, word "export", space, word "const", space, atLeastOnce (one isNamePart), gap, char '=',
  gap, char '(', gap, char ')', gap,
  optional (all [char ':', gap, atLeastOnce (one isNamePart), gap]), word "=>", gap,
  atLeastOnce (one isNamePart), word ".getInstance()"]

/-- A line feed and at least two blank lines. -/
def blankRun : Pattern :=
  let blankLine := next gap (char '\n')
  all [char '\n', blankLine, blankLine, many true blankLine]

/-- Whether a text has a sign of a registry. -/
def isRegistry (t : Text) : Bool :=
  instanceField.occursIn t || instanceMethod.occursIn t || instanceExport.occursIn t ||
    Text.holds t Source.accessorMark.toList

/-- The first class that a text declares. -/
def className? (t : Text) : Option String :=
  (classDeclaration.find? t).bind fun m => (m.textOf? "name").map String.ofList

end Registrar.Recognition
