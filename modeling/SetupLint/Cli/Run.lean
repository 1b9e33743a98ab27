import SetupLint.Cli.Arguments
import SetupLint.Cli.Walk
import SetupLint.Config
import SetupLint.ConfigSchema
import SetupLint.Json.Message
import SetupLint.Report.Emitter

/-! What the commands do, as a function of the files that they see. -/
namespace SetupLint.Cli

open Json (Document)

/-- What a command comes to. -/
structure Outcome where
  code : Nat := 0
  output : String := ""
  /-- The number of units that the last line of the output tells about, together
  with the time that was needed. -/
  linted : Option Nat := none
  errors : List String := []
  logs : List LogEntry := []

/-- The file that holds the configuration if no other is named. -/
def configFile : String := "gesso.config.json"

def unitSuffix : String := ".unit.json"

/-- The configuration of a file, or the default one, with a message. -/
def readConfig (f : Files) (path : String) : Config × List LogEntry :=
  match f.readWritten? path with
  | none => ({}, [.badConfig path])
  | some text =>
    match Config.ofText text with
    | .ok config => (config, [.goodConfig path])
    | .error _ => ({}, [.badConfig path])

/-- The configuration that is named, or the one in the usual file if there is one. -/
def loadConfig (f : Files) (path : Option String) : Config × List LogEntry :=
  match path with
  | some path => readConfig f path
  | none => if (f.locate? configFile).isSome then readConfig f configFile else ({}, [])

/-- The messages about codes that no rule has. -/
def unknownRules (config : Config) : List LogEntry :=
  config.lint.unknownCodes.map .unknownRule

/-- Whether an entry holds a unit, by its name. -/
def isUnitFile (e : Entry) : Bool :=
  e.fileName?.any fun name => unitSuffix.toList.isSuffixOf name.toList

/-- The entries with units that patterns stand for, in order. -/
def unitFiles (f : Files) (patterns : List String) : List Entry :=
  (patterns.flatMap f.select).filter isUnitFile

/-- The unit in an entry, or a message. -/
def readUnit (f : Files) (e : Entry) : Except LogEntry CompilationUnit :=
  match f.read? e.path with
  | none => .error (.badUnit e)
  | some text =>
    match CompilationUnit.ofText text with
    | .ok unit => .ok unit
    | .error _ => .error (.badUnit e)

def readUnits (f : Files) : List Entry → List CompilationUnit × List LogEntry
  | [] => ([], [])
  | e :: entries =>
    let (units, logs) := readUnits f entries
    match readUnit f e with
    | .ok unit => (unit :: units, logs)
    | .error log => (units, log :: logs)

def report (format : Format) (units : List CompilationUnit) (results : List LintResult) : String :=
  let sources : Report.Sources :=
    units.filterMap fun unit => unit.source.map fun source => (unit.path, source)
  match format with
  | .text => Report.text results sources
  | .json => Report.machine results sources
  | .lsp => Report.Emitter.editor.emitAll (results.zip (units.map (·.source)))

/-- Whether a run fails. -/
def exceedsLimits (errors warnings : Nat) (maxWarnings : Option Nat) : Bool :=
  decide (0 < errors) || maxWarnings.any fun limit => decide (limit < warnings)

/-- The lines about too many warnings. Errors speak for themselves. -/
def limitLines (errors warnings : Nat) (maxWarnings : Option Nat) : List String :=
  match errors, maxWarnings with
  | 0, some limit =>
    if limit < warnings then
      ["", "Too many warnings (" ++ toString warnings ++ " > max " ++ toString limit ++ ")"]
    else []
  | _, _ => []

def lintUnits (options : LintOptions) (linter : Linter) (units : List CompilationUnit) :
    Outcome :=
  let (results, total) := linter.lintAll units
  let report := report options.format units results
  let isSilent := options.quiet && total.errorCount == 0 && total.warningCount == 0
  let shown := if isSilent || report.toList.all Text.isBlank then "" else report
  let summary := Report.summary total.errorCount total.warningCount units.length
  { code := if exceedsLimits total.errorCount total.warningCount options.maxWarnings then 1 else 0
    output := if options.format = .text then shown ++ "\n" ++ summary ++ "\n" else shown
    linted := if options.format = .text then some units.length else none
    errors := limitLines total.errorCount total.warningCount options.maxWarnings }

/-- What the log tells about the linting of a unit. -/
def unitLogs (linter : Linter) (unit : CompilationUnit) : List LogEntry :=
  let vocabulary := linter.catalogs.vocabulary
  let components := unit.components vocabulary
  let plain := unit.classes.filter fun c => (Component.ofClass? vocabulary c).isNone
  let found := (linter.findings unit).length
  let left := (linter.lint unit).diagnostics.length
  plain.map (fun c => .plainClass c.name.text) ++
    (components.filter Component.isAmbiguous).map (fun c => .ambiguousBuilder c.name) ++
    .lintingUnit unit.path components.length ::
    linter.enabled.map (fun rule =>
      .ranRule rule.code (rule.findings linter.catalogs unit).length) ++
    if found = left then [] else [.suppressed unit.path (found - left)]

def runLint (f : Files) (options : LintOptions) : Outcome :=
  let searchLogs := options.patterns.flatMap f.selectLogs
  match unitFiles f options.patterns with
  | [] =>
    { errors :=
        ["No resolved units found matching patterns: " ++ Text.quotedList options.patterns]
      logs := searchLogs }
  | files =>
    let (config, configLogs) := loadConfig f options.config
    let linter := match config.lint.linter with
      | .ok linter => linter
      | .error _ => {}
    let (units, badUnits) := readUnits f files
    { lintUnits options linter units with
      logs := searchLogs ++ configLogs ++ unknownRules config ++ badUnits ++
        .loadedUnits files.length units.length :: units.flatMap (unitLogs linter) }

/-- A rule in the list of rules. -/
structure RuleEntry where
  info : RuleInfo
  enabled : Bool

namespace RuleEntry

def code (e : RuleEntry) : String := qualifiedCode e.info.code

/-- A text with blanks up to a width. -/
def padded (width : Nat) (text : String) : String :=
  text ++ String.ofList (List.replicate (width - text.length) ' ')

def line (width : Nat) (e : RuleEntry) : String :=
  (if e.enabled then "*" else " ") ++ " " ++ padded width e.code ++ "  " ++
    padded 7 e.info.severity.word ++ "  " ++ e.info.description ++
    (if e.info.fixable then " (fixable)" else "") ++ "\n"

def encode (e : RuleEntry) : Document :=
  Json.record
    [("code", .text e.code), ("severity", .text e.info.severity.word),
     ("category", .text e.info.category.word), ("fixable", .bool e.info.fixable),
     ("enabled", .bool e.enabled), ("description", .text e.info.description)]

end RuleEntry

def rulesText (entries : List RuleEntry) : String :=
  let width := (entries.map (·.code.length)).foldl max 0
  String.join (entries.map (RuleEntry.line width)) ++
    "\n* enabled by the current configuration\n"

def runRules (f : Files) (path : Option String) (format : String) : Outcome :=
  let (config, logs) := loadConfig f path
  let entries := Rule.recommended.map fun rule =>
    (⟨rule.info, config.lint.enabledCodes.contains rule.code⟩ : RuleEntry)
  { output :=
      if format = "json" then Json.pretty (Json.list (entries.map RuleEntry.encode)) ++ "\n"
      else rulesText entries
    logs := logs ++ unknownRules config }

def Command.run (f : Files) : Command → Outcome
  | .lint options => runLint f options
  | .rules config format => runRules f config format
  | .schema => { output := Config.schemaText ++ "\n" }

/-- Run a command, and keep of its log what has been asked for. -/
def Invocation.run (f : Files) (i : Invocation) : Outcome :=
  let outcome := i.command.run f
  { outcome with logs := shownLogs i.verbosity outcome.logs }

/-- What a command line comes to that asks for no command. -/
def usage : Outcome where
  code := 2
  errors :=
    ["Usage: lint [PATTERNS] [-c FILE] [-f text|json|lsp] [--max-warnings N] [-q] " ++
       "[--parallel-rules] [-v]",
     "       rules [-c FILE] [-f text|json] [-v]",
     "       schema [-v]"]

def run (f : Files) (arguments : List String) : Outcome :=
  match Invocation.ofArguments? arguments with
  | some invocation => invocation.run f
  | none => usage

end SetupLint.Cli
