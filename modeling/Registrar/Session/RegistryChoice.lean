import Registrar.Session.Asking

/-!
Which registry a command is about: the given one, or a remembered one, or else the first one of the
workspace. What the choice changes in memory is only staged, and committed when the command has been
carried out.
-/

namespace Registrar

/-- The file is a registry. -/
def Workspace.checkRegistry (w : Workspace) (path : Path) : Except Failure Unit :=
  if !w.disk.isFile path then .error (.registryMissing path)
  else if !w.isRegistry path then .error (.notRegistry path)
  else .ok ()

/-- A remembered registry is gone. -/
def Workplace.isStale (w : Workplace) (r : Remembered) : Bool := !w.disk.isFile r.path

/-- A remembered registry as it is offered. -/
def Workplace.offer (w : Workplace) (r : Remembered) : String :=
  r.label ++ " (" ++ w.shown r.path ++ ")" ++ if w.isStale r then " [missing]" else ""

/-- What is done about a remembered registry that is gone. -/
inductive Remedy where
  | forget
  | browse
  | cancel
  deriving DecidableEq, Repr

/-- A remedy as it is offered. -/
def Remedy.words : Remedy → String
  | .forget => "Remove it from the list"
  | .browse => "Browse for its new location"
  | .cancel => "Cancel"

/-- How a step of the search for a registry has ended. -/
inductive Found where
  | registry (path : Path)
  /-- A remembered registry has been given up; others may be left. -/
  | forgotten
  /-- Nothing remembered is left to choose from. -/
  | nothing
  | cancelled
  deriving DecidableEq, Repr

namespace Inquiry

/-- A change of what is remembered is staged. -/
def stage (change : Staged) : Inquiry Unit :=
  modify fun t => { t with staged := t.staged ++ [change] }

/-- A registry is found, and its use staged. -/
def settleOn (path : Path) (label? : Option String) : Inquiry Found := do
  stage (.remember path label?)
  return .registry path

/-- A remedy for a registry that is gone; a new place that is not that of a registry is told so, and
a remedy asked for again, at most `tries` times. -/
def remedy (r : Remembered) : Nat → Inquiry Found
  | 0 => throw (.answer .noTerminal)
  | tries + 1 => do
    match ← one "What should happen to it?" Remedy.words [.forget, .browse, .cancel] with
    | some .forget =>
      stage (.forget r.path)
      Talk.say .info ("Forgetting registry '" ++ r.label ++ "'")
      return .forgotten
    | some .browse =>
      match ← file "Registry file" with
      | none => return .cancelled
      | some path =>
        match (← read).checkRegistry path with
        | .ok () =>
          stage (.forget r.path)
          settleOn path (some r.label)
        | .error why =>
          Talk.say .error why.message
          remedy r tries
    | _ => return .cancelled

/-- The remembered registries that have not been given up, the last used one first. -/
def remaining : Inquiry (List Remembered) := do
  let forgotten := (← get).staged.filterMap fun
    | .forget path => some path
    | .remember .. => none
  return (← read).store.preferences.list.filter fun r => !forgotten.any r.path.same

/-- One of the remembered registries that are left; a single one that is still there is not asked
about. -/
def amongRemembered : Inquiry Found := do
  let w ← read
  let choice? ← match ← remaining with
    | [] => return .nothing
    | [r] => if w.isStale r then one "Select a registry" w.offer [r] else pure (some r)
    | rs => one "Select a registry" w.offer rs
  match choice? with
  | none => return .cancelled
  | some r =>
    if w.isStale r then
      Talk.say .warning
        ("Registry '" ++ r.label ++ "' no longer exists at " ++ r.path.text)
      remedy r ((← patience) + 1)
    else settleOn r.path none

/-- One of the remembered registries, of which at most `tries` are given up. -/
def remembered : Nat → Inquiry Found
  | 0 => return .nothing
  | tries + 1 => do
    match ← amongRemembered with
    | .forgotten => remembered tries
    | found => return found

/-- The first registry of the workspace. -/
def firstRegistry : Inquiry Found := do
  let w ← read
  match w.firstRegistry? with
  | none => throw (.noRegistry w.root)
  | some path =>
    Talk.say .info ("Using registry " ++ w.shown path)
    settleOn path none

/-- The registry that a command is about, unless the user cancels; what is staged for other commands
is dropped. -/
def registry (given? : Option Path) : Inquiry (Option Path) := do
  modify fun t => { t with staged := [] }
  let w ← read
  let found ← match given? with
    | some given =>
      let path := w.resolve given
      match w.checkRegistry path with
      | .ok () => settleOn path none
      | .error why => throw why
    | none =>
      match ← remembered w.store.preferences.registries.length with
      | .nothing => firstRegistry
      | found => pure found
  match found with
  | .registry path => return some path
  | _ => return none

end Inquiry

/-- The changes that the choice of a registry has staged are made; those after a failure are
dropped. -/
def Action.commitChoice : Action Unit := do
  let s ← get
  set { s with talk := { s.talk with staged := [] } }
  s.talk.staged.forM fun change => Action.change (·.commit change)

end Registrar
