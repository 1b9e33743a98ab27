import SetupLint.Cli.Files
import SetupLint.Cli.IgnoreRule

/-! The log of a command. It tells about mistakes in what the command was given and, if
more is asked for, about its steps. -/
namespace SetupLint.Cli

/-- How much a message matters. -/
inductive Level where
  | error
  | warn
  | info
  | debug
  | trace
deriving DecidableEq, Repr

namespace Level

def word : Level → String
  | .error => "ERROR"
  | .warn => "WARN"
  | .info => "INFO"
  | .debug => "DEBUG"
  | .trace => "TRACE"

/-- How often more has to be asked for until messages of a level are shown. -/
def verbosity : Level → Nat
  | .error => 0
  | .warn => 0
  | .info => 1
  | .debug => 2
  | .trace => 3

end Level

/-- What a message in the log is about. -/
inductive LogEntry where
  /-- A unit that cannot be read or decoded. -/
  | badUnit (entry : Entry)
  /-- A configuration that cannot be read or decoded. -/
  | badConfig (path : String)
  /-- A code in a configuration that no rule has. -/
  | unknownRule (code : String)
  /-- A configuration that is used. -/
  | goodConfig (path : String)
  /-- The units that are linted, and the files that they were looked for in. -/
  | loadedUnits (files units : Nat)
  /-- A unit that is about to be linted, and its components. -/
  | lintingUnit (path : String) (components : Nat)
  /-- A class that is no component. -/
  | plainClass (name : String)
  /-- A setup routine that returns several closures. -/
  | ambiguousBuilder (name : String)
  /-- A rule that has been run, with the number of its findings. -/
  | ranRule (code : String) (findings : Nat)
  /-- Findings of a unit that its comments suppress. -/
  | suppressed (path : String) (findings : Nat)
  /-- A file with rules for walks that has been opened. -/
  | openedRules (path : List String)
  /-- A rule for walks that has to be searched for. -/
  | searchedRule (pieces : List PathPiece)
  /-- The rules for walks of a file. -/
  | builtRules (rules : Nat)
  /-- An entry for which a walk has a verdict. -/
  | judged (entry : Entry) (verdict : Verdict)
deriving DecidableEq

def LogEntry.level : LogEntry → Level
  | .badUnit _ => .error
  | .badConfig _ => .warn
  | .unknownRule _ => .warn
  | .loadedUnits _ _ => .info
  | .plainClass _ => .trace
  | .ranRule _ _ => .trace
  | _ => .debug

def LogEntry.message : LogEntry → String
  | .badUnit entry => "cannot load unit " ++ entry.written
  | .badConfig path => "cannot load " ++ path ++ "; using default configuration"
  | .unknownRule code => "ignoring unknown rule in config: " ++ code
  | .goodConfig path => "loaded config " ++ path
  | .loadedUnits files units =>
    "loaded " ++ toString units ++ " units from " ++ toString files ++ " files"
  | .lintingUnit path components =>
    "linting " ++ path ++ " with " ++ toString components ++ " components"
  | .plainClass name => "not a component: " ++ name
  | .ambiguousBuilder name => name ++ " returns several closures from its setup"
  | .ranRule code findings => "rule " ++ code ++ " has " ++ toString findings ++ " findings"
  | .suppressed path findings =>
    "comments suppress " ++ toString findings ++ " findings in " ++ path
  | .openedRules path => "opened " ++ "/".intercalate path
  | .searchedRule pieces => "a rule of " ++ toString pieces.length ++ " pieces is searched for"
  | .builtRules rules => "built " ++ toString rules ++ " rules"
  | .judged entry .ignored => "ignoring " ++ entry.written
  | .judged entry .kept => "keeping " ++ entry.written

/-- The messages that are shown if more has been asked for so many times. -/
def shownLogs (verbosity : Nat) (logs : List LogEntry) : List LogEntry :=
  logs.filter fun entry => decide (entry.level.verbosity ≤ verbosity)

end SetupLint.Cli
