import Registrar.Session.Basic
import Registrar.Workspace.Validation

/-!
Commands that only look: the list of what the walk finds, and the report of a validation.
-/

namespace Registrar

/-- A text without a style. -/
def Piece.plain (text : String) : Piece := ⟨text, {}⟩

/-- A helper file as a line of the list. -/
def Workplace.helperLine (w : Workplace) (h : HelperFile) : Styled :=
  let shown := Piece.dimmed (w.shown h.file)
  match h.identity with
  | .declared name => [.plain ("  " ++ name ++ " "), shown]
  | .guessed guess =>
    [.plain "  ", .coloured .yellow guess, .plain " ", shown, .plain " ",
      .dimmed "(no class declaration)"]

/-- The registries and the helper files of the workspace. -/
def Workplace.listing (w : Workplace) : List Styled :=
  let registries := w.registries
  let helpers := w.helperFiles
  [[.plain ("Found " ++ registries.length.repr ++ " registr(ies):")]] ++
    (registries.map fun path => [.plain ("  " ++ w.shown path)]) ++
    [[.plain ("Found " ++ helpers.length.repr ++ " helper candidate(s):")]] ++
    helpers.map w.helperLine

/-- The sizes of a validation as a line. -/
def Diagnostics.line (d : Diagnostics) : Styled :=
  [.bold "Diagnostics:",
    .plain (" Files: " ++ d.filesScanned.repr ++ ", Registries: " ++ d.registries.repr ++
      ", Helpers: " ++ d.helpers.repr ++ " (" ++ d.registeredHelpers.repr ++ " registered)")]

/-- The word for a weight, in its colour. -/
def Severity.tag : Severity → Piece
  | .error => .bold "error" (some .red)
  | .warning => .bold "warn" (some .yellow)
  | .info => .bold "info" (some .blue)

/-- A finding as a line. -/
def Workplace.findingLine (w : Workplace) (f : Finding) : Styled :=
  [.plain "  ", f.severity.tag, .plain " ", .dimmed (w.shown f.file),
    .plain (" " ++ f.issue.message)]

/-- The report of a validation, with its sizes if they are asked for. -/
def Workplace.reportLines (w : Workplace) (r : ValidationReport) (withSizes : Bool) :
    List Styled :=
  (if withSizes then [[], r.diagnostics.line] else []) ++
    if r.findings.isEmpty then
      [[.bold "ok:" (some .green), .plain " No problems found"]]
    else
      [[], [.bold "Found" (some .red),
        .plain (" " ++ r.diagnostics.errors.repr ++ " error(s), " ++ r.diagnostics.warnings.repr ++
          " warning(s):")], []] ++ r.findings.map w.findingLine

namespace Inquiry

/-- The registries and the helper files of the workspace are printed. -/
def scan : Inquiry Unit := do (← read).listing.forM fun line => Talk.print line

/-- The workspace is validated and the report printed, as JSON or in lines. -/
def validate (json withSizes : Bool) : Inquiry ValidationReport := do
  let w ← read
  match w.validate w.store.preferences with
  | .error why => throw why
  | .ok report =>
    let lines := if json then [[Piece.plain (String.ofList report.value.text)]]
      else w.reportLines report withSizes
    lines.forM fun line => Talk.print line
    return report

end Inquiry
end Registrar
