import Registrar.Workflow.Basic
import Registrar.Workspace.Change
import Registrar.Workspace.Reference

/-!
Helpers in a registry: adding those that are offered or given, removing them with or without their
files, and removing the entries whose files are gone.
-/

namespace Registrar

/-! ### Adding -/

/-- What is given of helpers to add. -/
structure Adding where
  registry? : Option Path := none
  /-- The files of the helpers; they are asked for if there are none. -/
  files : List Path := []

/-- A registry and the files that are added to it. -/
structure AddingPlan where
  registry : Path
  files : List Path

/-- Why a candidate was skipped, in words. -/
def SkipReason.words : SkipReason → String
  | .duplicate => "already registered"
  | .circular accessor => "it imports " ++ accessor ++ " from this registry"
  | .unresolved => "no class declaration found"
  | .registry => "it is a registry, not a helper"
  | .unreadable => "file could not be read"

/-- Whether a registry has a file among its helpers, or why the file is not offered to it. -/
inductive Offer where
  | offered (h : HelperFile)
  | registered
  /-- The file is left out, with a word about it. -/
  | leftOut (words : String)

/-- What becomes of a helper file before the user is asked. -/
def Workplace.offerOf (w : Workplace) (registry : Path) (z : Zones) (h : HelperFile) : Offer :=
  match h.identity with
  | .guessed guess =>
    .leftOut ("Skipping " ++ w.shown h.file ++ ": no class declaration found (would guess " ++
      guess ++ ")")
  | .declared className =>
    if z.importsName className || z.hasField (h.field w.config) then .registered
    else if (w.disk.readText? h.file).any fun text =>
        importsOwnAccessor w.config w.root registry h.file text h.accessor then
      .leftOut ("Skipping " ++ w.shown h.file ++ ": it imports " ++ h.accessor ++
        " from this registry")
    else .offered h

/-- Helpers in the order in which they are offered. -/
def Workplace.inOrder (w : Workplace) (helpers : List HelperFile) : List HelperFile :=
  match w.store.preferences.order with
  | .name => sorted (fun a b => (compare a.identity.name b.identity.name).isLE) helpers
  | .path => sorted (fun a b => (a.file.order b.file).isLE) helpers
  | .modified => sorted (fun a b => w.disk.modified b.file ≤ w.disk.modified a.file) helpers

/-- The helpers among offers. -/
def Offer.helpers (offers : List Offer) : List HelperFile :=
  offers.filterMap fun
    | .offered h => some h
    | _ => none

/-- The words about what is left out. -/
def Offer.remarks (offers : List Offer) : List String :=
  offers.filterMap fun
    | .leftOut words => some words
    | _ => none

/-- The number of helpers that the registry has. -/
def Offer.registeredCount (offers : List Offer) : Nat :=
  offers.countP fun
    | .registered => true
    | _ => false

namespace Inquiry

/-- The unregistered helpers of the workspace that the user picks. -/
def pickHelpers (registry : Path) : Inquiry (Option (List Path)) := do
  let w ← read
  let z := Zones.ofText (← readText registry)
  let offers := w.helperFiles.map (w.offerOf registry z)
  (Offer.remarks offers).forM fun words => Talk.say .info words
  let registered := Offer.registeredCount offers
  if 0 < registered then Talk.say .info (registered.repr ++ " helper(s) already registered")
  let helpers := w.inOrder (Offer.helpers offers)
  if helpers.isEmpty then throw (.nothingToAdd w.root)
  let picked? ← several "Helpers to add"
    (fun h => h.identity.name ++ " (" ++ w.shown h.file ++ ")") helpers
  return picked?.map (·.map (·.file))

/-- Given files, all of which have to be there. -/
def givenHelpers (files : List Path) : Inquiry (List Path) := do
  let w ← read
  (files.map w.resolve).mapM fun file =>
    if w.disk.isFile file then return file else throw (.helperMissing file)

end Inquiry

/-- Files are added to a registry, the choice of the registry is committed, and the user is told. -/
def addAndReport (registry : Path) (files : List Path) : Action Unit := do
  let report ← Action.changeDisk fun w => w.add registry files
  Action.commitChoice
  let w ← Action.place
  report.skipped.forM fun s =>
    Talk.say .info ("Skipped " ++ s.name ++ ": " ++ s.reason.words)
  if report.added.isEmpty then
    Talk.say .info ("Nothing added; " ++ w.shown registry ++ " is unchanged")
  else
    Talk.say .success
      ("Added " ++ String.intercalate ", " report.added ++ " to " ++ w.shown registry)

open Inquiry in
/-- Helpers are added to a registry. -/
def Workflow.add (options : Adding) : Workflow AddingPlan where
  inquire := withRegistry options.registry? fun registry => do
    if options.files.isEmpty then
      match ← pickHelpers registry with
      | none => return .cancel
      | some files => return .carryOut ⟨registry, files⟩
    else return .carryOut ⟨registry, ← givenHelpers options.files⟩
  carryOut plan := addAndReport plan.registry plan.files

/-! ### Removing -/

/-- What is given of helpers to remove. -/
structure Removing where
  registry? : Option Path := none
  /-- The classes of the helpers; they are asked for if there are none. -/
  classes : List String := []
  /-- The helpers' files are deleted too. -/
  deletesFiles : Bool := false
  /-- Nothing has to be confirmed. -/
  sure : Bool := false

/-- A registry, the classes that are removed from it, and the files that are deleted. -/
structure RemovingPlan where
  registry : Path
  classes : List String
  files : List Path
  deriving DecidableEq, Repr

/-- What becomes of the file of a helper that is removed. -/
inductive FileFate where
  | deleted (file : Path)
  /-- It is mentioned elsewhere. -/
  | kept (references : List Reference)
  | missing

/-- What becomes of the file from which a registry imports a class. -/
def Workspace.fileFate (w : Workspace) (registry : Path) (z : Zones) (className : String) :
    FileFate :=
  match w.helperFile? registry z className with
  | none => .missing
  | some file =>
    match w.references className (Naming.accessor className) [registry, file] with
    | [] => .deleted file
    | references => .kept references

/-- A mention as it is shown. -/
def Workspace.place (w : Workspace) (r : Reference) : String :=
  w.shown r.file ++ ":" ++ r.line.repr ++ ": " ++ r.text

namespace Inquiry

/-- The helpers of a registry that the user picks. -/
def pickRegistered (registry : Path) (z : Zones) : Inquiry (Option (List String)) := do
  let registered := z.helpers.map (·.2)
  if registered.isEmpty then throw (.nothingToRemove registry)
  several "Helpers to remove" id registered

/-- The files of classes, none of which may be mentioned elsewhere. -/
def filesOf (registry : Path) (z : Zones) (classes : List String) : Inquiry (List Path) := do
  let w ← read
  let fates := classes.map fun className => (className, w.fileFate registry z className)
  fates.forM fun
    | (className, .missing) =>
      Talk.say .warning
        ("No source file found for " ++ className ++ "; only its entry is removed")
    | _ => pure ()
  let places := fates.flatMap fun
    | (_, .kept references) => references.map w.place
    | _ => []
  if !places.isEmpty then throw (.referenced places)
  return fates.filterMap fun
    | (_, .deleted file) => some file
    | _ => none

end Inquiry

/-- What the user is asked to confirm. -/
def RemovingPlan.question (plan : RemovingPlan) : String :=
  "Remove " ++ String.intercalate ", " plan.classes ++ " from the registry" ++
    if plan.files.isEmpty then "?"
    else " and delete " ++ plan.files.length.repr ++ " file(s)?"

open Inquiry in
/-- Helpers are removed from a registry, and their files deleted if they are to be. -/
def Workflow.remove (options : Removing) : Workflow RemovingPlan where
  inquire := withRegistry options.registry? fun registry => do
    let z := Zones.ofText (← readText registry)
    let classes? ← if options.classes.isEmpty then pickRegistered registry z
      else pure (some options.classes)
    let some classes := classes? | return .cancel
    let files ← if options.deletesFiles then filesOf registry z classes else pure []
    let plan : RemovingPlan := ⟨registry, classes, files⟩
    confirmed options.sure plan.question false plan
  carryOut plan := do
    let report ← Action.changeDisk fun w => w.remove plan.registry plan.classes
    plan.files.forM fun file => Action.atPath .delete file (·.remove file)
    Action.commitChoice
    let w ← Action.place
    report.missing.forM fun name => Talk.say .info (name ++ " is not in the registry")
    if !report.removed.isEmpty then
      Talk.say .success ("Removed " ++ String.intercalate ", " report.removed)
    plan.files.forM fun file => Talk.say .success ("Deleted " ++ w.shown file)

/-! ### Cleaning up -/

/-- What is given of a registry that is cleaned up or deleted. -/
structure Discarding where
  registry? : Option Path := none
  /-- Nothing has to be confirmed. -/
  sure : Bool := false

/-- A registry and the classes of its orphans. -/
structure CleanupPlan where
  registry : Path
  classes : List String

open Inquiry in
/-- The entries whose files are gone are removed from a registry. -/
def Workflow.cleanUp (options : Discarding) : Workflow CleanupPlan where
  inquire := withRegistry options.registry? fun registry => do
    let w ← read
    let z := Zones.ofText (← readText registry)
    match w.orphansIn registry z with
    | [] => return .carryOut ⟨registry, []⟩
    | orphans =>
      orphans.forM fun o =>
        Talk.say .info
          (o.className ++ " (" ++ o.accessor ++ ") imports missing '" ++ o.specifier ++ "'")
      confirmed options.sure ("Remove " ++ orphans.length.repr ++ " orphaned entr(ies)?") true
        ⟨registry, orphans.map (·.className)⟩
  carryOut plan := do
    if plan.classes.isEmpty then
      Action.commitChoice
      Talk.say .success "No orphaned entries"
    else
      let report ← Action.changeDisk fun w => w.remove plan.registry plan.classes
      Action.commitChoice
      Talk.say .success ("Removed " ++ String.intercalate ", " report.removed)

/-! ### Deleting -/

open Inquiry in
/-- A registry file is deleted and forgotten; its helpers' files stay. -/
def Workflow.delete (options : Discarding) : Workflow Path where
  inquire := withRegistry options.registry? fun registry => do
    confirmed options.sure ("Delete registry " ++ (← read).shown registry ++ "?") false registry
  carryOut registry := do
    Action.atPath .delete registry (·.remove registry)
    Action.commitChoice
    discard <| Action.change (·.forget registry)
    Talk.say .success ("Deleted registry " ++ (← Action.place).shown registry)

end Registrar
