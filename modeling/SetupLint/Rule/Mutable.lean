import SetupLint.Component
import SetupLint.Rule.Basic

/-! The fields of the instances of a component are its props and have to be
final. -/
namespace SetupLint.Rule

/-- The edit that makes a field final: `var` is replaced; else the keyword goes
before the type, or before the name. -/
def makeFinal (field : FieldDecl) : TextEdit :=
  match Keyword.find? .varWord field.keywords with
  | some keyword => ⟨keyword.span, "final"⟩
  | none =>
    let offset := match field.type, field.declared.toList with
      | some type, _ => type.span.start
      | none, first :: _ => first.declaredName.span.start
      | none, [] => field.span.start
    .insert offset "final "

def mutableFinding (component : Component) (field : FieldDecl) : Diagnostic :=
  let names := field.declared.toList.map fun d => mention d.declaredName.text
  { mutableField.finding
      ("Field " ++ ", ".intercalate names ++ " of " ++ mention component.name ++ " is mutable")
      field.span with
    fix := some ⟨"Make the field final", [makeFinal field]⟩ }

/-- The fields of the instances that are not final. -/
def checkFields (component : Component) : List Diagnostic :=
  (component.decl.fields.filter fun field => !field.isStatic && !field.isImmutable).map
    (mutableFinding component)

end SetupLint.Rule
