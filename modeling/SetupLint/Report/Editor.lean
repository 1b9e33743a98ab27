import SetupLint.Json.Printer
import SetupLint.Diagnostic
import SetupLint.Text.Line

/-! Results as JSON for an editor that speaks the language server protocol. Lines
and characters start at 0; without a source everything is on the first line and
the offsets are the characters. -/
namespace SetupLint.Report

open Json (Document)

def editorPosition (source : Option String) (offset : UInt32) : Text.Position :=
  match source with
  | some source => Text.positionOf source.toList offset.toNat
  | none => ⟨0, offset.toNat⟩

structure EditorFinding where
  start : Text.Position
  stop : Text.Position
  severity : Severity
  message : String
  code : String

/-- The name under which an editor shows the findings. -/
def editorSource : String := "gesso-patina"

def editorSeverity : Severity → Int
  | .error => 1
  | .warning => 2

namespace EditorFinding

/-- A finding for an editor. The help follows the message on a line of its own. -/
def ofDiagnostic (source : Option String) (d : Diagnostic) : EditorFinding where
  start := editorPosition source d.span.start
  stop := editorPosition source d.span.stop
  severity := d.severity
  message := match d.help with
    | some help => d.message ++ "\n" ++ help
    | none => d.message
  code := d.qualifiedRule

def encodePosition (p : Text.Position) : Document :=
  Json.record [("line", Json.int p.line), ("character", Json.int p.column)]

def encode (f : EditorFinding) : Document :=
  Json.record
    [("range", Json.record [("start", encodePosition f.start), ("end", encodePosition f.stop)]),
     ("severity", Json.int (editorSeverity f.severity)), ("message", .text f.message),
     ("source", .text editorSource), ("code", .text f.code)]

end EditorFinding

def editorFindings (result : LintResult) (source : Option String) : List EditorFinding :=
  result.diagnostics.map (.ofDiagnostic source)

def editor (result : LintResult) (source : Option String) : String :=
  Json.pretty (Json.list ((editorFindings result source).map EditorFinding.encode))

end SetupLint.Report
