import Registrar.Session.RegistryChoice

/-!
Workflows. Each first asks everything that it has to know and comes to a plan, and only then
carries the plan out; a workflow that ends before it has a plan has changed nothing.
-/

namespace Registrar

/-- What an inquiry comes to. -/
inductive Decision (Plan : Type) where
  /-- The user does not want to go on. -/
  | cancel
  /-- There is nothing left to do. -/
  | rest
  | carryOut (plan : Plan)
  deriving DecidableEq, Repr

/-- How a workflow has ended. -/
inductive Outcome where
  | completed
  | cancelled
  deriving DecidableEq, Repr

/-- An inquiry and what is done about its plan. -/
structure Workflow (Plan : Type) where
  inquire : Inquiry (Decision Plan)
  carryOut : Plan → Action Unit

namespace Session

/-- An inquiry made in a session. -/
def inquire {α : Type} (s : Session) (i : Inquiry α) : Except Failure α × Session :=
  let (result, talk) := (i.run s.place).run.run s.talk
  (result, { s with talk })

/-- An action carried out in a session. -/
def act {α : Type} (s : Session) (a : Action α) : Except Failure α × Session := a.run.run s

/-- A workflow gone through in a session. -/
def follow {Plan : Type} (s : Session) (w : Workflow Plan) : Except Failure Outcome × Session :=
  match s.inquire w.inquire with
  | (.error why, s) => (.error why, s)
  | (.ok .cancel, s) => (.ok .cancelled, s)
  | (.ok .rest, s) => (.ok .completed, s)
  | (.ok (.carryOut plan), s) =>
    match s.act (w.carryOut plan) with
    | (.error why, s) => (.error why, s)
    | (.ok (), s) => (.ok .completed, s)

/-- An inquiry does not touch the workplace. -/
@[simp] theorem inquire_place {α : Type} (s : Session) (i : Inquiry α) :
    (s.inquire i).2.place = s.place := rfl

end Session

namespace Inquiry

/-- The registry that a command is about, and what to do with it; a choice that is cancelled
cancels the command. -/
def withRegistry {Plan : Type} (given? : Option Path) (next : Path → Inquiry (Decision Plan)) :
    Inquiry (Decision Plan) := do
  match ← registry given? with
  | none => return .cancel
  | some path => next path

/-- The text of a file that has to be there. -/
def readText (file : Path) : Inquiry Text := do
  match (← read).disk.readText file with
  | .ok t => return t
  | .error why => throw (.file .read file why)

/-- The command goes on if it need not be confirmed or is. -/
def confirmed {Plan : Type} (sure : Bool) (words : String) (offered : Bool) (plan : Plan) :
    Inquiry (Decision Plan) := do
  if sure then return .carryOut plan
  else if ← confirmation words offered then return .carryOut plan
  else return .cancel

end Inquiry
end Registrar
