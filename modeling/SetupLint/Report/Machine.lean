import SetupLint.Json.Printer
import SetupLint.Report.Text
import SetupLint.Text.Line

/-! Results as JSON for other programs. Lines and columns start at 1 there, and are
0 where the source is not known. -/
namespace SetupLint.Report

open Json (Document)

/-- A line and a column that start at 1. -/
def humanPosition (source : Option String) (offset : UInt32) : Nat × Nat :=
  match source with
  | some source =>
    let position := Text.positionOf source.toList offset.toNat
    (position.line + 1, position.column + 1)
  | none => (0, 0)

def severityNumber : Severity → Int
  | .error => 2
  | .warning => 1

def findingRecord (source : Option String) (d : Diagnostic) : Document :=
  let (line, column) := humanPosition source d.span.start
  let (endLine, endColumn) := humanPosition source d.span.stop
  Json.record <|
    [("ruleId", .text d.qualifiedRule), ("severity", Json.int (severityNumber d.severity)),
     ("message", .text d.message)] ++
    (d.help.map fun help => ("help", .text help)).toList ++
    [("line", Json.int line), ("column", Json.int column), ("endLine", Json.int endLine),
     ("endColumn", Json.int endColumn), ("start", Json.int d.span.start.toNat),
     ("end", Json.int d.span.stop.toNat), ("fixable", .bool d.fix.isSome)]

def resultRecord (sources : Sources) (result : LintResult) : Document :=
  let source := sources.find? result.file
  Json.record
    [("file", .text result.file),
     ("messages", Json.list (result.diagnostics.map (findingRecord source))),
     ("errorCount", Json.int result.errorCount),
     ("warningCount", Json.int result.warningCount)]

def machine (results : List LintResult) (sources : Sources) : String :=
  Json.pretty (Json.list (results.map (resultRecord sources)))

end SetupLint.Report
