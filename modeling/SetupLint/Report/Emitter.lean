import SetupLint.Report.Editor
import SetupLint.Report.Machine

/-! Emitters: the forms in which results are delivered one after another, each
followed by a summary where the form has one. -/
namespace SetupLint.Report

/-- A form of delivery. -/
inductive Emitter where
  | text
  | machine
  | editor
deriving DecidableEq

namespace Emitter

def name : Emitter → String
  | .text => "text"
  | .machine => "json"
  | .editor => "lsp"

/-- The sources for a result of which the source may be known. -/
def sourcesFor (result : LintResult) (source : Option String) : Sources :=
  (source.map fun source => (result.file, source)).toList

def emit (e : Emitter) (result : LintResult) (source : Option String) : String :=
  match e with
  | .text => Report.text [result] (sourcesFor result source)
  | .machine => Report.machine [result] (sourcesFor result source)
  | .editor => Report.editor result source

def emitSummary (e : Emitter) (results : List LintResult) : String :=
  match e with
  | .text =>
    let total := LintSummary.ofResults results
    "\n" ++ Report.summary total.errorCount total.warningCount total.fileCount ++ "\n"
  | .machine => ""
  | .editor => ""

/-- Some results in a form, with their summary. -/
def emitAll (e : Emitter) (results : List (LintResult × Option String)) : String :=
  String.join (results.map fun (result, source) => e.emit result source) ++
    e.emitSummary (results.map (·.1))

end Emitter
end SetupLint.Report
