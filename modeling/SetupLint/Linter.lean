import SetupLint.Rule.Async
import SetupLint.Rule.Builder
import SetupLint.Rule.Composition
import SetupLint.Rule.Dependency
import SetupLint.Rule.HeldValue
import SetupLint.Rule.Lifecycle
import SetupLint.Rule.Mutable
import SetupLint.Rule.Props
import SetupLint.Suppression

/-! The linter: it runs its rules over a unit, one after another, and leaves out
what the comments of the source suppress. -/
namespace SetupLint

namespace Rule

def checkComponent (r : Rule) (catalogs : Catalogs) (component : Component) : List Diagnostic :=
  match r with
  | .conditionalComposition => checkComposition catalogs component
  | .asyncSetup => checkAsync component
  | .reactiveProps => checkProps catalogs component
  | .resourceLifecycle => checkLifecycle catalogs component
  | .builderLogic => checkBuilder component
  | .mutableField => checkFields component
  | .heldValue => []
  | .dependencyKey => []

def checkUnit (r : Rule) (catalogs : Catalogs) (unit : CompilationUnit) : List Diagnostic :=
  match r with
  | .heldValue => checkHeldValues catalogs unit
  | .dependencyKey => checkDependencies catalogs unit
  | _ => []

def findings (r : Rule) (catalogs : Catalogs) (unit : CompilationUnit) : List Diagnostic :=
  (unit.components catalogs.vocabulary).flatMap (r.checkComponent catalogs) ++
    r.checkUnit catalogs unit

def find? (rules : List Rule) (code : String) : Option Rule := rules.find? (·.code = code)

/-- The rules with the given codes in the order of the rules, or the first code
that no rule has. -/
def select (codes : List String) : Except String (List Rule) :=
  match codes.find? fun code => (find? recommended code).isNone with
  | some unknown => .error unknown
  | none => .ok (recommended.filter fun r => codes.contains r.code)

end Rule

/-- A linter. If codes are given, only the rules with these codes run. -/
structure Linter where
  rules : List Rule := Rule.recommended
  catalogs : Catalogs := .builtin
  codes : Option (List String) := none

namespace Linter

def enables (l : Linter) (code : String) : Bool := l.codes.all fun codes => codes.contains code

def enabled (l : Linter) : List Rule := l.rules.filter fun r => l.enables r.code

/-- The findings of all rules that run, before any is suppressed. -/
def findings (l : Linter) (unit : CompilationUnit) : List Diagnostic :=
  l.enabled.flatMap fun r => r.findings l.catalogs unit

/-- Leave out what is suppressed. Only a unit with its source has comments. -/
def finish (unit : CompilationUnit) (diagnostics : List Diagnostic) : List Diagnostic :=
  match unit.source with
  | some source => (Suppression.ofSource source).filter diagnostics
  | none => diagnostics

def lint (l : Linter) (unit : CompilationUnit) : LintResult :=
  .ofDiagnostics unit.path (finish unit (l.findings unit))

def lintAll (l : Linter) (units : List CompilationUnit) : List LintResult × LintSummary :=
  let results := units.map l.lint
  (results, .ofResults results)

end Linter
end SetupLint
