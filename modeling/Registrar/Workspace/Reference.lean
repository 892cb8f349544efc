import Registrar.Text.Line
import Registrar.Path.Normal
import Registrar.Workspace.Basic

/-!
Mentions of a helper: the lines in which its class or its accessor stands as a whole word.
-/

namespace Registrar

/-- A line that mentions a helper. -/
structure Reference where
  file : Path
  /-- The number of the line, from 1. -/
  line : Nat
  /-- The line without the white space around it. -/
  text : String
  deriving DecidableEq, Repr

/-- The words that mention a helper. -/
def Reference.pattern (className accessor : String) : Pattern :=
  .all [.place Cursor.splitsWord, .either (.literal className.toList) (.literal accessor.toList),
    .place Cursor.splitsWord]

/-- The lines of a text that a pattern occurs in, numbered on from `line`. -/
def Reference.ofLines (p : Pattern) (file : Path) : Nat → List Text → List Reference
  | _, [] => []
  | line, t :: rest =>
    if p.occursIn t then ⟨file, line, String.ofList (Text.trim t)⟩ :: ofLines p file (line + 1) rest
    else ofLines p file (line + 1) rest

/-- The mentions of a helper in the sources other than the given ones. -/
def Workspace.references (w : Workspace) (className accessor : String) (except : List Path) :
    List Reference :=
  let except := except.map Path.normal
  let p := Reference.pattern className accessor
  (w.sources.filter fun file => !except.any file.normal.same).flatMap fun file =>
    match w.disk.readText? file with
    | some text => Reference.ofLines p file 1 (Text.lines text)
    | none => []

end Registrar
