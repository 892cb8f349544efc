import Registrar.CommandLine.Arguments
import Registrar.Config.Discovery
import Registrar.Workflow.Survey

/-!
The program on a disk: arguments are read, settings and preferences loaded, and the command is
carried out with nobody to answer questions.
-/

namespace Registrar.CommandLine

/-- The world that the program runs in. -/
structure Surroundings where
  disk : Disk
  /-- The value of an environment variable. -/
  environment? : String → Option String
  clock : Stamp

/-- What the program leaves behind. -/
structure Reply where
  /-- What the program tells its caller: 0 when all is well. -/
  exitCode : Nat
  output : List Styled := []
  errors : List Styled := []
  disk : Disk

/-- The folder of settings: that of the environment if it is given from the top, or else one in the
user's own folder. -/
def settingsFolder? (s : Surroundings) : Option Path :=
  let given? := (s.environment? "XDG_CONFIG_HOME").filter fun p => Path.isAbsolute ⟨p⟩
  let home? := (s.environment? "HOME").filter fun p => !p.isEmpty
  (given?.map Path.mk).or (home?.map fun home => Path.child ⟨home⟩ ".config")

/-- The preferences file. -/
def preferencesFile? (s : Surroundings) (given? : Option Path) : Option Path :=
  (given?.or ((s.environment? "PAGE_REGISTRY_PREFS").map Path.mk)).or
    ((settingsFolder? s).map fun folder =>
      (folder.child "page-registry").child "preferences.json")

/-- A line with its mark in front. -/
def marked (tone : Tone) (text : String) : Styled :=
  let mark := match tone with
    | .info => Piece.bold "info:" (some .blue)
    | .success => Piece.bold "ok:" (some .green)
    | .warning => Piece.bold "warn:" (some .yellow)
    | .error => Piece.bold "error:" (some .red)
  [mark, .plain (" " ++ text)]

/-- The lines of an event on the output. -/
def outputOf : Event → Option Styled
  | .printed line => some line
  | .said .info text => some (marked .info text)
  | .said .success text => some (marked .success text)
  | _ => none

/-- The lines of an event among the errors. -/
def errorOf : Event → Option Styled
  | .said .warning text => some (marked .warning text)
  | .said .error text => some (marked .error text)
  | _ => none

/-- The session that arguments and surroundings lead to. -/
def openSession (s : Surroundings) (a : Arguments) : Except Failure Session := do
  let root ← (s.disk.canonical a.root).mapError (Failure.noRoot a.root)
  let config ← Config.load s.disk root a.config?
  let store ← match preferencesFile? s a.preferences? with
    | some file => Store.load s.disk file
    | none => pure {}
  return { place := { disk := s.disk, root := root.normal, config, store, clock := s.clock } }

/-- A command carried out in a session. -/
def perform (s : Session) (verbose : Bool) : Command → Except Failure Outcome × Session
  | .newRegistry options => s.follow (.newRegistry options)
  | .add options => s.follow (.add options)
  | .newHelper options => s.follow (.newHelper options)
  | .use options => s.follow (.use options)
  | .remove options => s.follow (.remove options)
  | .delete options => s.follow (.delete options)
  | .cleanUp options => s.follow (.cleanUp options)
  | .memory command => s.follow (.memory command)
  | .scan =>
    let (result, s) := s.inquire Inquiry.scan
    (result.map fun _ => .completed, s)
  | .validate json strict =>
    let (result, s) := s.inquire (Inquiry.validate json verbose)
    (result.bind fun report =>
      if strict && report.hasErrors then .error (.invalid report.diagnostics.errors)
      else .ok .completed, s)

/-- The reply to a session that has ended. -/
def replyOf (result : Except Failure Outcome) (s : Session) : Reply :=
  let output := s.talk.events.filterMap outputOf
  let errors := s.talk.events.filterMap errorOf
  match result with
  | .ok .completed => { exitCode := 0, output, errors, disk := s.place.disk }
  | .ok .cancelled =>
    { exitCode := 0, output, disk := s.place.disk
      errors := errors ++ [marked .info "Cancelled; nothing was changed"] }
  | .error why =>
    { exitCode := 1, output, disk := s.place.disk
      errors := errors ++ [marked .error why.wholeMessage] }

/-- The program run with the given words. -/
def run (s : Surroundings) (words : List String) : Reply :=
  match Arguments.read words with
  | .error .help => { exitCode := 0, disk := s.disk }
  | .error .usage => { exitCode := 2, disk := s.disk }
  | .ok a =>
    match openSession s a with
    | .error why =>
      { exitCode := 1, errors := [marked .error why.wholeMessage], disk := s.disk }
    | .ok session =>
      let (result, session) := perform session a.verbose a.command
      replyOf result session

end Registrar.CommandLine
