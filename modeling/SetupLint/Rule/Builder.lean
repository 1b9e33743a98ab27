import SetupLint.Component
import SetupLint.Rule.Basic

/-! The builder closure runs at every rebuild. It should only take values apart
and return. -/
namespace SetupLint.Rule

/-- Whether a statement may stand in a builder closure. -/
def isAllowed : Stmt → Bool
  | .returnStmt .. => true
  | .patternStmt _ _ pattern _ => pattern.isDestructuring
  | _ => false

def checkBuilder (component : Component) : List Diagnostic :=
  match component.builder?.bind fun builder => builder.functionBody.block? with
  | none => []
  | some block =>
    (block.statements.filter fun stmt => !isAllowed stmt).map fun stmt =>
      builderLogic.problemAt stmt.span

end SetupLint.Rule
