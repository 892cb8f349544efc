import Registrar.Registry.Anchor
import Registrar.Specifier
import Registrar.Text.Splice

/-!
Adding helpers to a registry. Candidates are judged one after another against the text and those
accepted before them; the accepted ones become entries, and all entries are put in by one edit at
each anchor and one at the end.
-/

namespace Registrar

/-- A registry that is edited. -/
structure Host where
  config : Config
  root : Path
  path : Path
  text : Text

/-- A helper in a registry. -/
structure Entry where
  className : String
  field : String
  accessor : String
  specifier : String
  deriving DecidableEq, Repr

/-- Why a candidate is not added. -/
inductive SkipReason where
  /-- Its class, field, accessor or export is there already. -/
  | duplicate
  /-- It imports its own accessor from the registry. -/
  | circular (accessor : String)
  /-- It declares no class. -/
  | unresolved
  /-- It is a registry. -/
  | registry
  | unreadable
  deriving DecidableEq, Repr

/-- A candidate that was not added. -/
structure Skipped where
  name : String
  file : Path
  reason : SkipReason
  deriving DecidableEq, Repr

/-- A file offered to a registry. -/
structure Candidate where
  file : Path
  /-- The text, if it could be read. -/
  text? : Option Text
  /-- The file is the registry's own. -/
  isHost : Bool

/-- Whether a helper's text imports the accessor from the registry. -/
def importsOwnAccessor (config : Config) (root registry helper : Path) (text : Text)
    (accessor : String) : Bool :=
  (Zones.ofText text).imports.any fun i =>
    i.binds accessor &&
      (Specifier.base? config root helper i.specifier).any fun base =>
        Specifier.baseMatches config base registry

namespace Host

/-- The zones of the registry's text. -/
def zones (h : Host) : Zones := Zones.ofText h.text

/-- The class of the registry: the declared one, or the one that the file is named after. -/
def className (h : Host) : String :=
  h.zones.className.getD <|
    let stem := (Naming.displayName h.path).toList.takeWhile (· != '.')
    String.ofList (Naming.pascal (fun c => c == '-' || c == '_') stem)

/-- The entry of a class that a file declares. -/
def entry (h : Host) (file : Path) (className : String) : Entry where
  className
  field := Naming.field h.config.fieldPrefix className
  accessor := Naming.accessor className
  specifier := Specifier.of h.config h.root h.path file

/-- Whether a part of the entry is in the registry or among the entries accepted before it. -/
def clashes (h : Host) (z : Zones) (accepted : List Entry) (e : Entry) : Bool :=
  z.importsName e.className || z.hasField e.field || (z.accessorNamed? e.accessor).isSome ||
    (exportSpan? h.text e.accessor).isSome ||
    accepted.any fun a => a.className == e.className || a.field == e.field

/-- The entry of a candidate, or why it is not added. -/
def judge (h : Host) (z : Zones) (accepted : List Entry) (c : Candidate) : Except Skipped Entry :=
  match c.text? with
  | none => .error ⟨Naming.displayName c.file, c.file, .unreadable⟩
  | some text =>
    if c.isHost || Recognition.isRegistry text then
      .error ⟨(Recognition.className? text).getD (Naming.displayName c.file), c.file, .registry⟩
    else
      match Recognition.className? text with
      | none => .error ⟨Naming.guessClass h.config c.file, c.file, .unresolved⟩
      | some className =>
        let e := h.entry c.file className
        if h.clashes z accepted e then .error ⟨className, c.file, .duplicate⟩
        else if importsOwnAccessor h.config h.root h.path c.file text e.accessor then
          .error ⟨className, c.file, .circular e.accessor⟩
        else .ok e

/-- The judgement of each candidate in turn. -/
def judgeAll (h : Host) (z : Zones) (accepted : List Entry) :
    List Candidate → List (Except Skipped Entry)
  | [] => []
  | c :: rest =>
    match h.judge z accepted c with
    | .ok e => .ok e :: judgeAll h z (accepted ++ [e]) rest
    | .error s => .error s :: judgeAll h z accepted rest

/-- The import lines of new entries. -/
def importBlock (h : Host) (place : Nat) (entries : List Entry) : Text :=
  h.text.breakBefore place ++
    (entries.flatMap fun e => (Source.importLine e.className e.specifier).toList) ++
    (if h.zones.imports.isEmpty then ['\n'] else [])

/-- The fields of new entries. -/
def fieldBlock (h : Host) (anchor : FieldAnchor) (entries : List Entry) : Text :=
  h.text.breakBefore anchor.offset ++ (if anchor.separated then ['\n'] else []) ++
    entries.flatMap fun e => (Source.fieldLine e.field e.className).toList

/-- The accessors of new entries, each with a blank line on the side of the old ones. -/
def accessorBlock (h : Host) (anchor : AccessorAnchor) (entries : List Entry) : Text :=
  h.text.breakBefore anchor.offset ++ entries.flatMap fun e =>
    let block := (Source.accessorBlock h.config e.accessor e.field e.className).toList
    if anchor.atMark then block ++ ['\n'] else '\n' :: block

/-- The exports of new entries. -/
def exportBlock (h : Host) (entries : List Entry) : Text :=
  h.text.breakBefore h.text.size ++ entries.flatMap fun e =>
    (Source.exportLine h.config e.accessor e.className h.className).toList

/-- The edits that put entries in. -/
def additionEdits (h : Host) (entries : List Entry) : List Edit :=
  let anchors := Anchors.ofText h.text h.config.contextField
  [.insert anchors.imports (h.importBlock anchors.imports entries),
    .insert anchors.fields.offset (h.fieldBlock anchors.fields entries),
    .insert anchors.accessors.offset (h.accessorBlock anchors.accessors entries),
    .insert h.text.size (h.exportBlock entries)]

/-- The text with entries put in. -/
def withEntries (h : Host) (entries : List Entry) : Text :=
  Edit.applyAll (h.additionEdits entries) h.text

end Host

/-- What became of the candidates. -/
structure AdditionReport where
  added : List String := []
  skipped : List Skipped := []
  deriving DecidableEq, Repr

/-- The judgements sorted into entries and skipped candidates. -/
def AdditionReport.sort (judgements : List (Except Skipped Entry)) : List Entry × List Skipped :=
  (judgements.filterMap fun | .ok e => some e | .error _ => none,
    judgements.filterMap fun | .ok _ => none | .error s => some s)

/-- What becomes of the candidates, and the new text if any is added. -/
def Host.add (h : Host) (candidates : List Candidate) : AdditionReport × Option Text :=
  let (entries, skipped) := AdditionReport.sort (h.judgeAll h.zones [] candidates)
  (⟨entries.map (·.className), skipped⟩,
    if entries.isEmpty then none else some (h.withEntries entries))

end Registrar
