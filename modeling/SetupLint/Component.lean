import SetupLint.Catalog
import SetupLint.Tree.Part
import SetupLint.Tree.View

/-! Components: the classes of a unit that extend the host base, with the setup
routine of each and the closure that it returns to build the component. -/
namespace SetupLint

structure Component where
  decl : ClassDecl
  setup : Option MethodDecl

/-- The only element of a list. -/
def only? {α : Type} : List α → Option α
  | [a] => some a
  | _ => none

/-- A closure and its address in a phrase around it. -/
structure PlacedClosure where
  address : Address
  closure : Closure

/-- A closure as it is placed in a larger phrase. -/
def PlacedClosure.under (way : Address) (placed : PlacedClosure) : PlacedClosure :=
  { placed with address := way ++ placed.address }

namespace Phrase

/-- The way through the parentheses around an expression. -/
def throughParens : {c : Category} → Phrase c → Address
  | _, .paren _ expression => 0 :: expression.throughParens
  | _, _ => []

def placedFunction? (e : Expr) : Option PlacedClosure :=
  e.asFunction?.map fun closure => ⟨e.throughParens ++ [0], closure⟩

def placedReturn? : {c : Category} → Phrase c → Option PlacedClosure
  | _, .returnStmt _ (.some operand) => operand.placedFunction?.map (·.under [0, 0])
  | _, _ => none

def placedReturns : {c : Category} → Phrase c → List PlacedClosure
  | _, .cons stmt rest =>
    (stmt.placedReturn?.map (·.under [0])).toList ++ rest.placedReturns.map (·.under [1])
  | _, _ => []

/-- The closures that a setup body may build its component with: the function literal
after `=>`, or those that a `return` among the statements of the block returns. -/
def candidates : Body → List PlacedClosure
  | .body _ _ (.exprBody expression) => (expression.placedFunction?.map (·.under [0, 0])).toList
  | .body _ _ (.blockBody (.block _ inner)) => inner.placedReturns.map (·.under [0, 0, 0])
  | .body _ _ .noBody => []

/-- The builder closure of a setup body and its place: the closure that the body returns,
if there is only one. -/
def placedBuilder? (b : Body) : Option PlacedClosure := only? b.candidates

/-- The way to the builder closure of a setup body. -/
def builderAddress? (b : Body) : Option Address := b.placedBuilder?.map PlacedClosure.address

def builder? (b : Body) : Option Closure := b.placedBuilder?.map PlacedClosure.closure

end Phrase

namespace Component

def name (c : Component) : String := c.decl.name.text

def body? (c : Component) : Option Body := c.setup.map MethodDecl.body

def builder? (c : Component) : Option Closure := c.body?.bind Phrase.builder?

/-- Whether the setup routine returns several closures, so that none is the builder. -/
def isAmbiguous (c : Component) : Bool :=
  c.body?.any fun body => decide (1 < body.candidates.length)

/-- The component of a class, if it is one. -/
def ofClass? (v : Vocabulary) (c : ClassDecl) : Option Component :=
  if c.superclassName = some v.hostBase then some ⟨c, c.instanceMethod? v.setupMethod⟩ else none

end Component

def CompilationUnit.components (u : CompilationUnit) (v : Vocabulary) : List Component :=
  u.classes.filterMap (Component.ofClass? v)

end SetupLint
