import SetupLint.Rule.Basic
import SetupLint.Setup

/-! A field of a component that is read directly in setup keeps the value that it
had then. It has to be read through the self lookup. -/
namespace SetupLint.Rule

/-- The finding for a field that is read directly. -/
def directRead (vocabulary : Vocabulary) (field : String) (span : Span) : Diagnostic :=
  reactiveProps.finding
    (mention field ++ " is read directly in setup and will not update; use `" ++
      vocabulary.selfLookup ++ "." ++ field ++ "`") span

/-- The finding for an access to a property. -/
def propertyRead? (vocabulary : Vocabulary) (span : Span) (target : Expr) (name : Name) :
    Option Diagnostic :=
  if target.isThis && name.text != vocabulary.selfLookup then
    some (directRead vocabulary name.text span)
  else none

def identifierRead? (vocabulary : Vocabulary) (owner : String) (identifier : Identifier) :
    Option Diagnostic :=
  if identifier.name != vocabulary.selfLookup &&
      identifier.resolved.any fun r => r.isInstanceMemberOf owner then
    some (directRead vocabulary identifier.name identifier.span)
  else none

/-- The fields of a component that are read directly in its setup. -/
def checkProps (catalogs : Catalogs) (component : Component) : List Diagnostic :=
  component.setupOccurrences.filterMap fun (occurrence, _) =>
    match occurrence with
    | .property span target name => propertyRead? catalogs.vocabulary span target name
    | .identifier i => identifierRead? catalogs.vocabulary component.name i
    | _ => none

end SetupLint.Rule
