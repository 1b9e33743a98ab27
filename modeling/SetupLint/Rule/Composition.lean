import SetupLint.Rule.Basic
import SetupLint.Setup

/-! Composition primitives must be called in the same order at every setup, so
not inside conditionals and loops. -/
namespace SetupLint.Rule

def conditionalCall? (catalogs : Catalogs) (call : Call) (scope : Scope) : Option Diagnostic :=
  if scope.isConditional && catalogs.compositionPrimitives.contains call.method.text &&
      call.isTopLevel then
    some <| conditionalComposition.finding
      (mention call.method.text ++ " must not be called inside a conditional or loop") call.span
  else none

def checkComposition (catalogs : Catalogs) (component : Component) : List Diagnostic :=
  component.setupOccurrences.filterMap fun (occurrence, scope) =>
    match occurrence with
    | .call c => conditionalCall? catalogs c scope
    | _ => none

end SetupLint.Rule
