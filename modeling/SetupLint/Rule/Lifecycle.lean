import SetupLint.Rule.Basic
import SetupLint.Setup

/-! Resources that are made in setup have to be disposed of. A variable with a
resource is known by its name: it counts as released when a cleanup callback
disposes of a variable of this name, or when a helper that owns its resource
makes a variable of this name. -/
namespace SetupLint

/-- A variable with a resource. -/
structure Resource where
  name : String
  type : String
  span : Span

namespace Resource

/-- The type that an expression makes an instance of. A call of a constructor may
look like the call of a function. -/
def constructed? (e : Expr) : Option String :=
  match e.withoutParens with
  | .create _ type _ _ _ => some type.simpleName
  | .call _ .none method _ _ _ (some resolution) =>
    if resolution.kind = .constructor ∨ resolution.kind = .classType then some method.text
    else none
  | _ => none

/-- The disposable type that an expression makes an instance of. -/
def disposable? (catalogs : Catalogs) (e : Expr) : Option String :=
  (constructed? e).filter catalogs.disposablePrefixes.hasPrefixOf

/-- Whether an expression calls a helper that owns the resource it makes. -/
def isHelped (catalogs : Catalogs) (e : Expr) : Bool :=
  e.asCall?.any fun call => call.isTopLevel && catalogs.isResourceHelper call.method.text

def ofDeclarator? (catalogs : Catalogs) (d : Declarator) : Option Resource := do
  let type ← disposable? catalogs (← d.initial?)
  return ⟨d.declaredName.text, type, d.span⟩

/-- The name of a variable that a helper makes, where the variable is not itself a
resource. -/
def helpedName? (catalogs : Catalogs) (d : Declarator) : Option String := do
  let init ← d.initial?
  if (disposable? catalogs init).isNone ∧ isHelped catalogs init then
    return d.declaredName.text
  else none

/-- The walk that collects the variables that are disposed of. -/
def disposals (method : String) : Walk PUnit String where
  visit p _ := (p.call?.bind fun call =>
    if call.method.text = method then call.receiver?.map (·.name) else none).toList

/-- The variables that a call disposes of by a cleanup callback. -/
def disposedNames (vocabulary : Vocabulary) (call : Call) : List String :=
  if call.method.text = vocabulary.cleanupRegistration ∧ call.isTopLevel then
    match call.soleArgument?.bind Phrase.asFunction? with
    | some callback => callback.walk (disposals vocabulary.disposalMethod) ()
    | none => []
  else []

/-- The variables that are declared by an occurrence. -/
def declared : Occurrence → List Declarator
  | .locals decl => decl.declarators
  | _ => []

/-- The variables that are released by an occurrence: made by a helper or disposed
of by a callback. -/
def released (catalogs : Catalogs) : Occurrence → List String
  | .locals decl => decl.declarators.filterMap (helpedName? catalogs)
  | .call c => disposedNames catalogs.vocabulary c
  | _ => []

end Resource

namespace Rule

/-- The finding for a resource that is not released. -/
def leak (vocabulary : Vocabulary) (resource : Resource) : Diagnostic :=
  { resourceLifecycle.finding
      (mention resource.name ++ " (" ++ resource.type ++ ") is never disposed")
      resource.span with
    help := some <|
      "Add `" ++ vocabulary.cleanupRegistration ++ "(() => " ++ resource.name ++ "." ++
        vocabulary.disposalMethod ++ "())` or create it with a `" ++ vocabulary.helperPrefix ++
        "*` helper" }

/-- The resources that are made in setup and not released. -/
def checkLifecycle (catalogs : Catalogs) (component : Component) : List Diagnostic :=
  let occurrences := component.setupOccurrences.map (·.1)
  let resources :=
    (occurrences.flatMap Resource.declared).filterMap (Resource.ofDeclarator? catalogs)
  let released := occurrences.flatMap (Resource.released catalogs)
  (resources.filter fun resource => !released.contains resource.name).map
    (leak catalogs.vocabulary)

end Rule
end SetupLint
