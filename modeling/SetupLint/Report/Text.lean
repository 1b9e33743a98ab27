import SetupLint.Diagnostic

/-! Results as plain text. A finding whose source is known is shown by a headline
and its help; the others get a line each that tells the file and the offsets. -/
namespace SetupLint.Report

/-- The sources of some files by their names. -/
abbrev Sources := List (String × String)

/-- The source of a file. Of several sources for one name the last one counts. -/
def Sources.find? (sources : Sources) (file : String) : Option String :=
  (sources.reverse.find? fun (name, _) => name = file).map (·.2)

def helpLine (help : Option String) : String :=
  match help with
  | some help => "  help: " ++ help ++ "\n"
  | none => ""

def plainFinding (file : String) (d : Diagnostic) : String :=
  file ++ ":" ++ d.span.display ++ ": " ++ d.severity.word ++ " [" ++ d.qualifiedRule ++ "] " ++
    d.message ++ "\n" ++ helpLine d.help

def plain (result : LintResult) : String :=
  String.join (result.diagnostics.map (plainFinding result.file))

/-- The sign before a headline. -/
def sign : Severity → String
  | .error => "×"
  | .warning => "⚠"

/-- Whether a place can be shown in a source. It may end one byte behind the end. -/
def isShown (source : String) (span : Span) : Bool :=
  decide (span.start.toNat + span.length ≤ Text.byteLength source.toList + 1)

/-- The lines for a finding beside its source: none if one of its places cannot be
shown. -/
def sourceFinding (source : String) (d : Diagnostic) : String :=
  let notice := d.notice
  if notice.labels.all fun (_, span) => isShown source span then
    "  " ++ sign notice.severity ++ " " ++ notice.message ++ "\n" ++ helpLine notice.help ++ "\n"
  else ""

def textOf (sources : Sources) (result : LintResult) : String :=
  match sources.find? result.file with
  | some source => String.join (result.diagnostics.map (sourceFinding source))
  | none => plain result

def text (results : List LintResult) (sources : Sources) : String :=
  String.join (results.map (textOf sources))

/-- A number of things. -/
def amount (count : Nat) (noun : String) : String :=
  toString count ++ " " ++ noun ++ (if count = 1 then "" else "s")

/-- The sentence that sums results up. -/
def summary (errors warnings files : Nat) : String :=
  let counts := (if errors = 0 then [] else [amount errors "error"]) ++
    (if warnings = 0 then [] else [amount warnings "warning"])
  (if counts.isEmpty then "No problems found" else ", ".intercalate counts) ++
    " in " ++ amount files "file"

end SetupLint.Report
