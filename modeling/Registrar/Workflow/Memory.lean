import Registrar.Workflow.Basic

/-!
The list of remembered registries: showing it, naming and forgetting registries, and the order in
which helpers are offered.
-/

namespace Registrar

/-- What is done with the remembered registries. -/
inductive MemoryCommand where
  | list
  /-- A registry gets a label. -/
  | label (path : Path) (label : String)
  | forget (path : Path)
  /-- All registries are forgotten. -/
  | clear (sure : Bool)
  /-- Helpers are offered in another order, which is asked for if it is not given. -/
  | sort (order? : Option HelperOrder)

/-- A command that has all it needs. -/
inductive MemoryPlan where
  | label (path : Path) (label : String)
  | forget (path : Path)
  | clear
  | sort (order : HelperOrder)

/-- A remembered registry as a line of the list. -/
def Workplace.memoryLine (w : Workplace) (r : Remembered) : Styled :=
  [⟨"  ", {}⟩, .bold r.label, ⟨" ", {}⟩, .dimmed (w.shown r.path)] ++
    (if w.isStale r then [⟨" ", {}⟩, .coloured .red "(missing)"] else [])

/-- The list of the remembered registries. -/
def Workplace.memoryLines (w : Workplace) : List Styled :=
  let p := w.store.preferences
  (if p.list.isEmpty then [[⟨"No remembered registries", {}⟩]] else p.list.map w.memoryLine) ++
    [[⟨"Helper order: " ++ p.order.words, {}⟩]]

open Inquiry in
/-- A command about the remembered registries. -/
def Workflow.memory (command : MemoryCommand) : Workflow MemoryPlan where
  inquire := do
    let w ← read
    match command with
    | .list =>
      w.memoryLines.forM fun line => Talk.print line
      return .rest
    | .label given label =>
      let path := w.resolve given
      if !w.store.preferences.remembers path && !w.disk.isFile path then
        throw (.notRemembered path)
      return .carryOut (.label path label)
    | .forget given => return .carryOut (.forget (w.resolve given))
    | .clear sure => confirmed sure "Forget every remembered registry?" false .clear
    | .sort (some order) => return .carryOut (.sort order)
    | .sort none =>
      match ← one "Order helpers by" HelperOrder.words HelperOrder.every with
      | some order => return .carryOut (.sort order)
      | none => return .cancel
  carryOut
    | .label path label => do
      Action.change (·.upsert path (some label))
      Talk.say .success
        ("Labelled " ++ (← Action.place).shown path ++ " '" ++ label ++ "'")
    | .forget path => do
      let shown := (← Action.place).shown path
      if ← Action.change (·.forget path) then Talk.say .success ("Forgot " ++ shown)
      else Talk.say .info (shown ++ " was not remembered")
    | .clear => do
      Action.change (·.remember Preferences.clear)
      Talk.say .success "Forgot all registries"
    | .sort order => do
      Action.change (·.remember (·.setOrder order))
      Talk.say .success ("Helpers are now ordered by " ++ order.words)

end Registrar
