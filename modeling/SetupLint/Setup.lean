import SetupLint.Component
import SetupLint.Scope
import SetupLint.Tree.Walk

/-! The walk through a setup routine. It goes through the phrases in the order of the
source, keeps up its scope and tells a visitor what happens and where. The builder
closure is known by its place, so another function literal is never taken for it,
whatever its content and its span. -/
namespace SetupLint

/-- Something that happens in a setup routine. -/
inductive Occurrence where
  | call (call : Call)
  | property (span : Span) (target : Expr) (name : Name)
  | identifier (identifier : Identifier)
  /-- A declaration of local variables. -/
  | locals (decl : VariableDecl)

namespace Phrase

/-- What happens at a phrase. -/
def occurrence? : {c : Category} → Phrase c → Option Occurrence
  | _, p@(.call ..) => p.call?.map .call
  | _, .property span target name _ => some (.property span target name)
  | _, .identifier span name resolved => some (.identifier ⟨span, name, resolved⟩)
  | _, p@(.variableDecl ..) => some (.locals p)
  | _, _ => none

/-- The conditional or loop that a phrase is for its parts. -/
def frame? : {c : Category} → Phrase c → Option Frame
  | _, .ifStmt .. => some .conditional
  | _, .switchStmt .. => some .conditional
  | _, .conditional .. => some .conditional
  | _, .switchExpr .. => some .conditional
  | _, .forStmt .. => some .loop
  | _, .forInStmt .. => some .loop
  | _, .whileStmt .. => some .loop
  | _, .doWhileStmt .. => some .loop
  | _, _ => none

/-- The construct that a phrase is for its parts, by the way from it to the builder
closure. At the end of the way the closure is the builder closure. -/
def frameAt? {c : Category} (p : Phrase c) (way : Option Address) : Option Frame :=
  match p, way with
  | .closure .., some [] => some .builder
  | _, _ => p.frame?

end Phrase

/-- The way to the builder closure from the part with a number, if the builder closure
is in that part. -/
def Address.onward? (i : Nat) : Option Address → Option Address
  | some (j :: rest) => if i = j then some rest else none
  | _ => none

/-- What a visitor of a setup routine does when something happens in a scope. -/
abbrev SetupVisitor (σ : Type) := Occurrence → Scope → σ → σ

/-- Where a walk through a setup routine is, and the state of its visitor. -/
structure SetupWalk (σ : Type) where
  scope : Scope
  state : σ

namespace SetupWalk

/-- Tell the visitor what happens at a phrase. -/
def tell {σ : Type} (visitor : SetupVisitor σ) {c : Category} (p : Phrase c)
    (walk : SetupWalk σ) : SetupWalk σ :=
  match p.occurrence? with
  | some occurrence => { walk with state := visitor occurrence walk.scope walk.state }
  | none => walk

def enter {σ : Type} (frame : Option Frame) (walk : SetupWalk σ) : SetupWalk σ :=
  { walk with scope := frame.elim walk.scope walk.scope.enter }

def leave {σ : Type} (frame : Option Frame) (walk : SetupWalk σ) : SetupWalk σ :=
  { walk with scope := frame.elim walk.scope walk.scope.exit }

end SetupWalk

/-- Walk through a phrase from which a way may lead to the builder closure. -/
def Phrase.setupWalk {σ : Type} (visitor : SetupVisitor σ) {c : Category} (p : Phrase c) :
    Option Address → SetupWalk σ → SetupWalk σ :=
  p.fold fun p parts way walk =>
    let frame := p.frameAt? way
    let walkPart := fun walk (part, i) => part (Address.onward? i way) walk
    (parts.zipIdx.foldl walkPart ((walk.tell visitor p).enter frame)).leave frame

def Phrase.walkSetup {σ : Type} (visitor : SetupVisitor σ) (setup : Body) (state : σ) : σ :=
  (setup.setupWalk visitor setup.builderAddress? ⟨.outermost, state⟩).state

namespace Component

def walkSetup {σ : Type} (visitor : SetupVisitor σ) (c : Component) (state : σ) : σ :=
  match c.body? with
  | some setup => setup.walkSetup visitor state
  | none => state

/-- What happens in the setup routine of a component. -/
def occurrences (c : Component) : List (Occurrence × Scope) :=
  (c.walkSetup (fun occurrence scope found => (occurrence, scope) :: found) []).reverse

end Component

/-- What happens in the setup routine of a component outside its builder closure. -/
def Component.setupOccurrences (c : Component) : List (Occurrence × Scope) :=
  c.occurrences.filter fun (_, scope) => !scope.insideBuilder

/-- The line that tells about an occurrence and its place. -/
def Occurrence.text (occurrence : Occurrence) (scope : Scope) : String :=
  let (kind, span, name) := match occurrence with
    | .call c => ("call", c.span, c.method.text)
    | .property span _ name => ("property", span, name.text)
    | .identifier i => ("identifier", i.span, i.name)
    | .locals decl =>
      let names := decl.declarators.map fun (d : Declarator) => d.declaredName.text
      ("local", decl.span, ",".intercalate names)
  kind ++ " " ++ span.display ++ " " ++ name ++ " depth=" ++ toString scope.depth ++
    (if scope.isConditional then " conditional" else "") ++
    (if scope.insideBuilder then " builder" else "")

end SetupLint
