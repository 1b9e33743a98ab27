import SetupLint.Rule.Basic
import SetupLint.Catalog
import SetupLint.Tree.View
import SetupLint.Tree.Walk

/-! A dependency is found by its type, so a reactive wrapper of a common type is a
key that others may use, too. -/
namespace SetupLint.Rule

/-- A wrapper and the common type that it wraps. -/
structure Collision where
  wrapper : TypeRef
  common : TypeRef

/-- The collision of a type itself. -/
def directCollision? (catalogs : Catalogs) (type : TypeRef) : Option Collision :=
  if catalogs.wrapperTypes.contains type.simpleName then
    (type.args.find? fun arg => catalogs.primitiveTypes.contains arg.simpleName).map (⟨type, ·⟩)
  else none

mutual

/-- The first collision in a type, itself first and then its arguments. -/
def collision? (catalogs : Catalogs) : TypeRef → Option Collision
  | type@⟨_, _, args, _⟩ => directCollision? catalogs type <|> firstCollision? catalogs args

/-- The first collision in some types. -/
def firstCollision? (catalogs : Catalogs) : List TypeRef → Option Collision
  | [] => none
  | type :: types => collision? catalogs type <|> firstCollision? catalogs types

end

def keyFinding? (catalogs : Catalogs) (call : Call) (type : TypeRef) : Option Diagnostic :=
  (collision? catalogs type).map fun collision =>
    dependencyKey.finding
      (mention collision.wrapper.simpleName ++ " wraps " ++ mention collision.common.simpleName ++
        " and may collide with other " ++ mention collision.wrapper.text ++
        " dependencies in `" ++ call.method.text ++ "<" ++ type.text ++ ">`") type.span

def isDependencyCall (vocabulary : Vocabulary) (call : Call) : Bool :=
  (call.method.text == vocabulary.provide || call.method.text == vocabulary.inject) &&
    call.isTopLevel

def keyFindings (catalogs : Catalogs) (call : Call) : List Diagnostic :=
  if isDependencyCall catalogs.vocabulary call then
    call.typeArgs.filterMap (keyFinding? catalogs call)
  else []

/-- The walk that collects the keys that may collide. -/
def dependencyWalk (catalogs : Catalogs) : Walk PUnit Diagnostic where
  visit p _ := p.call?.elim [] (keyFindings catalogs)

def checkDependencies (catalogs : Catalogs) (unit : CompilationUnit) : List Diagnostic :=
  unit.walk (dependencyWalk catalogs) ()

end SetupLint.Rule
