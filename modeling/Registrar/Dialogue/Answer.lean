import Registrar.Letter.Shown
import Registrar.Path.Basic

/-!
Questions and answers. Every question but a confirmation may be dismissed; a confirmation is then a
no.
-/

namespace Registrar

/-- What the user is asked for. -/
inductive Question where
  /-- A folder, with one offered. -/
  | folder (words : String) (offered : Path)
  | file (words : String)
  /-- Some of the items. -/
  | several (words : String) (items : List String)
  /-- One of the items. -/
  | one (words : String) (items : List String)
  /-- A yes or a no, with one of them offered. -/
  | confirmation (words : String) (offered : Bool)
  | text (words : String)
  deriving DecidableEq, Repr

/-- The words of a question. -/
def Question.words : Question → String
  | .folder words _ => words
  | .file words => words
  | .several words _ => words
  | .one words _ => words
  | .confirmation words _ => words
  | .text words => words

/-- A prepared answer; a dismissed question has none in it. -/
inductive Answer where
  | folder (path? : Option Path)
  | file (path? : Option Path)
  /-- The places of items. -/
  | several (places? : Option (List Nat))
  /-- The place of an item. -/
  | one (place? : Option Nat)
  | confirmation (yes : Bool)
  | text (text? : Option String)
  deriving DecidableEq, Repr

namespace Answer

/-- The digits of a number to the base sixteen. -/
def code (n : Nat) : Text := Nat.toDigits 16 n

/-- A character between quotation marks; one that does not stand for itself is shown by its code. -/
def shownChar (c : Char) : Text :=
  match c with
  | '\x00' => ['\\', '0']
  | '\t' => ['\\', 't']
  | '\n' => ['\\', 'n']
  | '\r' => ['\\', 'r']
  | '"' => ['\\', '"']
  | '\\' => ['\\', '\\']
  | c => if Letter.isShown c then [c] else '\\' :: 'u' :: '\x7b' :: code c.toNat ++ ['\x7d']

/-- A string between quotation marks. -/
def shownString (s : String) : String :=
  String.ofList ('"' :: s.toList.flatMap shownChar ++ ['"'])

/-- Something that may be missing. -/
def shownOption : Option String → String
  | none => "None"
  | some s => "Some(" ++ s ++ ")"

/-- An answer as it is shown in a message. -/
def shown : Answer → String
  | .folder path? => "Directory(" ++ shownOption (path?.map fun p => shownString p.text) ++ ")"
  | .file path? => "File(" ++ shownOption (path?.map fun p => shownString p.text) ++ ")"
  | .several places? =>
    "Files(" ++ shownOption (places?.map fun places =>
      "[" ++ String.intercalate ", " (places.map Nat.repr) ++ "]") ++ ")"
  | .one place? => "Choice(" ++ shownOption (place?.map Nat.repr) ++ ")"
  | .confirmation yes => "Confirm(" ++ (if yes then "true" else "false") ++ ")"
  | .text text? => "Text(" ++ shownOption (text?.map shownString) ++ ")"

end Answer

/-- Why a question was not answered. -/
inductive AnswerFault where
  /-- No answer is left. -/
  | unanswered (question : Question)
  /-- The answer is one to another kind of question. -/
  | mismatch (question : Question) (answer : Answer)
  /-- A place is not that of an item. -/
  | outOfRange (question : Question) (place : Nat)
  /-- There is nobody to ask. -/
  | noTerminal
  deriving DecidableEq, Repr

/-- What the user is told. -/
def AnswerFault.message : AnswerFault → String
  | .unanswered q => "No scripted answer left for prompt '" ++ q.words ++ "'"
  | .mismatch q a =>
    let expected := match q with
      | .folder .. => "a directory answer"
      | .file _ => "a file answer"
      | .several .. => "a multi-selection"
      | .one .. => "a choice"
      | .confirmation .. => "a confirmation"
      | .text _ => "text"
    "Expected " ++ expected ++ " for '" ++ q.words ++ "', got " ++ a.shown
  | .outOfRange (.one words _) place =>
    "Scripted choice " ++ place.repr ++ " out of range for '" ++ words ++ "'"
  | .outOfRange q _ => "Scripted selection out of range for '" ++ q.words ++ "'"
  | .noTerminal => "IO error: not a terminal"

end Registrar
