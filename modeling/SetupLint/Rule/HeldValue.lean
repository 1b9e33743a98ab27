import SetupLint.Rule.Basic
import SetupLint.Catalog
import SetupLint.Tree.View
import SetupLint.Tree.Walk

/-! A reactive wrapper tells about a new held value, but not about a change inside
the value that it holds. -/
namespace SetupLint.Rule

/-- Whether an expression passes through the property `held` on its way from the
inside out. The receiver of a cascade does if `cascade` says so. -/
def reachesHeld (held : String) (cascade : Bool) : {c : Category} → Phrase c → Bool
  | _, .property _ target name _ => name.text == held || reachesHeld held cascade target
  | _, .index _ target _ => reachesHeld held cascade target
  | _, .call _ target _ _ _ _ _ => reachesHeld held cascade target
  | _, .some target => reachesHeld held cascade target
  | _, .paren _ expression => reachesHeld held cascade expression
  | _, .unary _ .nullAssert operand => reachesHeld held cascade operand
  | _, .cascadeReceiver _ => cascade
  | _, _ => false

/-- Whether writing to an expression changes something inside a held value. A new
held value is no such change. -/
def isMutatingTarget (held : String) (cascade : Bool) (target : Expr) : Bool :=
  match target.withoutParens with
  | .index _ inner _ => reachesHeld held cascade inner
  | .property _ inner _ _ => reachesHeld held cascade inner
  | _ => false

/-- The finding for a place that is written to. -/
def writeFinding? (held : String) (cascade : Bool) (span : Span) (target : Expr) :
    Option Diagnostic :=
  if isMutatingTarget held cascade target then
    some <| heldValue.finding
      ("Writing inside `." ++ held ++ "` mutates it in place and does not trigger updates") span
  else none

/-- The finding for the call of a method that changes its receiver. -/
def mutationFinding? (catalogs : Catalogs) (cascade : Bool) (call : Call) : Option Diagnostic :=
  let held := catalogs.vocabulary.heldValue
  if catalogs.mutatingMethods.contains call.method.text &&
      call.target.any fun target => reachesHeld held cascade target then
    some <| heldValue.finding
      ("`" ++ call.method.text ++ "()` mutates `." ++ held ++
        "` in place and does not trigger updates") call.span
  else none

/-- The finding for a phrase in a cascade whose target reaches a held value or
does not. -/
def mutationAt? (catalogs : Catalogs) (cascade : Bool) : {c : Category} → Phrase c →
    Option Diagnostic
  | _, .assign span _ target _ => writeFinding? catalogs.vocabulary.heldValue cascade span target
  | _, .update span _ _ operand =>
    writeFinding? catalogs.vocabulary.heldValue cascade span operand
  | _, p@(.call ..) => p.call?.bind (mutationFinding? catalogs cascade)
  | _, _ => none

/-- The walk that collects the changes inside held values. -/
def heldValueWalk (catalogs : Catalogs) : Walk Bool Diagnostic where
  visit p cascade := (mutationAt? catalogs cascade p).toList
  sections target cascade := reachesHeld catalogs.vocabulary.heldValue cascade target

def checkHeldValues (catalogs : Catalogs) (unit : CompilationUnit) : List Diagnostic :=
  unit.walk (heldValueWalk catalogs) false

end SetupLint.Rule
