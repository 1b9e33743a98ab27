import SetupLint.Tree.Span

/-! Diagnostics, and the fixes that come with them. -/
namespace SetupLint

/-- How bad a finding is. -/
inductive Severity where
  | warning
  | error
deriving DecidableEq

def Severity.word : Severity → String
  | .warning => "warning"
  | .error => "error"

/-- The replacement of the bytes of a span by a text. -/
structure TextEdit where
  span : Span
  text : String
deriving DecidableEq

namespace TextEdit

def insert (offset : UInt32) (text : String) : TextEdit := ⟨⟨offset, offset⟩, text⟩

/-- The text after an edit. Outside of the text nothing happens; inside of it both ends of
the span have to be cuts of the text. -/
def edited? (e : TextEdit) (cs : List Char) : Option (List Char) :=
  let start := e.span.start.toNat
  let stop := e.span.stop.toNat
  if start ≤ stop ∧ stop ≤ Text.byteLength cs then do
    let (left, _) ← Text.cut? start cs
    let (_, right) ← Text.cut? stop cs
    return left ++ e.text.toList ++ right
  else some cs

end TextEdit

/-- A proposal to mend a finding. -/
structure Fix where
  message : String
  edits : List TextEdit
deriving DecidableEq

namespace Fix

/-- The edits in the order of their application: from the last start to the first,
so that the offsets of those to come stay valid. -/
def ordered (f : Fix) : List TextEdit :=
  f.edits.mergeSort fun a b => decide (b.span.start ≤ a.span.start)

/-- The source after a fix. There is no result if an edit would cut a character. -/
def edited? (f : Fix) (source : String) : Option String :=
  (f.ordered.foldlM (fun cs (edit : TextEdit) => edit.edited? cs) source.toList).map String.ofList

end Fix

/-- A further place that matters for a finding. -/
structure Label where
  message : String
  span : Span
deriving DecidableEq

structure Diagnostic where
  rule : String
  severity : Severity
  message : String
  span : Span
  help : Option String := none
  labels : List Label := []
  fix : Option Fix := none
deriving DecidableEq

def ruleNamespace : String := "compositions"

/-- The code of a rule with its namespace. -/
def qualifiedCode (code : String) : String := ruleNamespace ++ "/" ++ code

/-- A finding as it is shown beside its source: the labelled places are given by
an offset and a length. -/
structure Notice where
  severity : Severity
  message : String
  help : Option String
  labels : List (Option String × Span)

namespace Diagnostic

def qualifiedRule (d : Diagnostic) : String := qualifiedCode d.rule

/-- What is shown of a finding. The place of the finding itself comes first and
has no text. -/
def notice (d : Diagnostic) : Notice where
  severity := d.severity
  message := d.qualifiedRule ++ ": " ++ d.message
  help := d.help
  labels := (none, d.span) :: d.labels.map fun label => (some label.message, label.span)

end Diagnostic

def countSeverity (severity : Severity) (diagnostics : List Diagnostic) : Nat :=
  diagnostics.countP (·.severity = severity)

/-- The findings in a source file, and how many of them are errors and warnings. -/
structure LintResult where
  file : String
  diagnostics : List Diagnostic
  errorCount : Nat
  warningCount : Nat
deriving DecidableEq

/-- The result with some findings. Errors are counted, and the other findings are warnings. -/
def LintResult.ofDiagnostics (file : String) (diagnostics : List Diagnostic) : LintResult :=
  let errorCount := countSeverity .error diagnostics
  { file, diagnostics, errorCount, warningCount := diagnostics.length - errorCount }

structure LintSummary where
  errorCount : Nat := 0
  warningCount : Nat := 0
  fileCount : Nat := 0
deriving DecidableEq

namespace LintSummary

def add (s : LintSummary) : Severity → LintSummary
  | .error => { s with errorCount := s.errorCount + 1 }
  | .warning => { s with warningCount := s.warningCount + 1 }

def ofResults (results : List LintResult) : LintSummary where
  errorCount := results.foldr (fun r count => r.errorCount + count) 0
  warningCount := results.foldr (fun r count => r.warningCount + count) 0
  fileCount := results.length

def hasErrors (s : LintSummary) : Bool := decide (0 < s.errorCount)

end LintSummary
end SetupLint
