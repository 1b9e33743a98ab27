import SetupLint.Diagnostic

/-! The rules, and what is known about each of them besides what it checks. -/
namespace SetupLint

/-- What a rule is about. -/
inductive RuleCategory where
  /-- The order of calls in a setup routine. -/
  | setup
  /-- Resources and their release. -/
  | lifecycle
  /-- Reactive values. -/
  | reactivity
  /-- The shape of components and builder closures. -/
  | shape
deriving DecidableEq

def RuleCategory.word : RuleCategory → String
  | .setup => "setup"
  | .lifecycle => "lifecycle"
  | .reactivity => "reactivity"
  | .shape => "structure"

structure RuleInfo where
  code : String
  description : String
  /-- What is wrong where nothing more is known. -/
  problem : String
  /-- How to mend it. -/
  correction : String
  category : RuleCategory
  fixable : Bool := false
  severity : Severity

inductive Rule where
  | conditionalComposition
  | asyncSetup
  | reactiveProps
  | resourceLifecycle
  | builderLogic
  | mutableField
  | heldValue
  | dependencyKey
deriving DecidableEq

namespace Rule

/-- The rules that report errors, in their order. -/
def essential : List Rule := [.conditionalComposition, .asyncSetup, .reactiveProps]

/-- All rules in their order. -/
def recommended : List Rule :=
  essential ++ [.resourceLifecycle, .builderLogic, .mutableField, .heldValue, .dependencyKey]

def info : Rule → RuleInfo
  | .conditionalComposition =>
    { code := "no-conditional-composition"
      description := "Disallow composition primitives inside conditionals and loops of setup"
      problem := "Composition API called inside a conditional or loop"
      correction :=
        "Call composition APIs unconditionally at the top level of setup and branch on the " ++
          "values they hold"
      category := .setup
      severity := .error }
  | .asyncSetup =>
    { code := "no-async-setup"
      description := "Disallow asynchronous setup routines"
      problem := "Setup must be synchronous"
      correction :=
        "Keep setup synchronous and start asynchronous work from onMounted or a watcher"
      category := .setup
      severity := .error }
  | .reactiveProps =>
    { code := "ensure-reactive-props"
      description := "Require component props to be read through `widget` in setup"
      problem := "Prop read directly in setup loses reactivity"
      correction := "Read the prop through `widget` inside a reactive computation"
      category := .setup
      severity := .error }
  | .resourceLifecycle =>
    { code := "controller-lifecycle"
      description := "Require disposable resources created in setup to be disposed"
      problem := "Resource is never disposed"
      correction :=
        "Dispose it in an onCleanup callback or create it with a lifecycle-owning use* helper"
      category := .lifecycle
      severity := .warning }
  | .builderLogic =>
    { code := "no-logic-in-builder"
      description :=
        "Disallow statements other than destructuring and return in the builder closure"
      problem := "Logic in the builder closure runs on every rebuild"
      correction := "Move the computation into setup, for example with derived()"
      category := .shape
      severity := .warning }
  | .mutableField =>
    { code := "no-mutable-fields"
      description := "Require component instance fields to be final"
      problem := "Component field is mutable"
      correction := "Make the field final and keep mutable values in state() inside setup"
      category := .shape
      fixable := true
      severity := .warning }
  | .heldValue =>
    { code := "shallow-reactivity"
      description := "Disallow in-place mutation of reactive held values"
      problem := "In-place mutation of a held value does not trigger updates"
      correction := "Assign a new value instead, e.g. `items.value = [...items.value, item]`"
      category := .reactivity
      severity := .warning }
  | .dependencyKey =>
    { code := "provide-inject-type-match"
      description := "Disallow reactive wrappers of common types as provide/inject keys"
      problem := "Dependency key uses a common type and may collide"
      correction :=
        "Wrap the value in a dedicated type, e.g. `State<Username>` instead of `State<String>`"
      category := .reactivity
      severity := .warning }

def code (r : Rule) : String := r.info.code

/-- A finding of a rule, with its correction as help. -/
def finding (r : Rule) (message : String) (span : Span) : Diagnostic where
  rule := r.code
  severity := r.info.severity
  message := message
  span := span
  help := some r.info.correction

/-- A finding of which nothing more is known. -/
def problemAt (r : Rule) (span : Span) : Diagnostic := r.finding r.info.problem span

end Rule

/-- A name inside a message. -/
def mention (name : String) : String := "`" ++ name ++ "`"

end SetupLint
