import Registrar.Dialogue.Answer
import Registrar.Dialogue.Styled

/-!
A talk with the user: who answers, what was asked, said and printed so far, and what is to be
remembered when the talk has led to something.
-/

namespace Registrar

/-- How something is said. -/
inductive Tone where
  | info
  | success
  | warning
  | error
  deriving DecidableEq, Repr

/-- What the user sees. -/
inductive Event where
  | asked (question : Question)
  | said (tone : Tone) (text : String)
  | printed (line : Styled)
  deriving DecidableEq, Repr

/-- Who answers. -/
inductive Respondent where
  /-- Prepared answers, in their order. -/
  | script (answers : List Answer)
  | nobody
  deriving DecidableEq, Repr

/-- The number of answers that are left. -/
def Respondent.patience : Respondent → Nat
  | .script answers => answers.length
  | .nobody => 0

/-- A change of what is remembered that waits for its command to be carried out. -/
inductive Staged where
  | forget (path : Path)
  | remember (path : Path) (label? : Option String)
  deriving DecidableEq, Repr

/-- A talk. -/
structure Talk where
  respondent : Respondent := .nobody
  /-- What the user has seen, the first first. -/
  events : List Event := []
  staged : List Staged := []
  deriving DecidableEq, Repr

namespace Talk

/-- The user sees something more. -/
def record (e : Event) : StateM Talk Unit := modify fun t => { t with events := t.events ++ [e] }

/-- Something is said. -/
def say (tone : Tone) (text : String) : StateM Talk Unit := record (.said tone text)

/-- A line is printed. -/
def print (line : Styled) : StateM Talk Unit := record (.printed line)

/-- The next answer, for a question that has been put. -/
def answer (q : Question) : StateM Talk (Except AnswerFault Answer) := do
  match (← get).respondent with
  | .nobody => return .error .noTerminal
  | .script [] => return .error (.unanswered q)
  | .script (a :: rest) =>
    modify fun t => { t with respondent := .script rest }
    return .ok a

end Talk
end Registrar
