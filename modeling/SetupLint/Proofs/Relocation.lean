import Mathlib.Data.List.Basic
import SetupLint.Diagnostic
import SetupLint.Tree.Declaration

/-! Trees with other positions. A function on offsets moves every span of a tree, whether or not
it keeps offsets apart or in order. A type names and shows the same wherever it stands. -/
namespace SetupLint

variable (f : UInt32 → UInt32)

def Span.relocate (s : Span) : Span := ⟨f s.start, f s.stop⟩

def Name.relocate (n : Name) : Name := { n with span := n.span.relocate f }

def Keyword.relocate (k : Keyword) : Keyword := { k with span := k.span.relocate f }

/-- Keywords are found by their kind. -/
theorem Keyword.find?_relocate (kind : KeywordKind) (keywords : List Keyword) :
    find? kind (keywords.map (relocate f)) = (find? kind keywords).map (relocate f) :=
  List.find?_map ..

namespace TypeRef

mutual

/-- A type with other positions, also in its arguments. -/
def relocate (f : UInt32 → UInt32) : TypeRef → TypeRef
  | ⟨span, name, args, nullable⟩ => ⟨span.relocate f, name, relocateAll f args, nullable⟩

def relocateAll (f : UInt32 → UInt32) : List TypeRef → List TypeRef
  | [] => []
  | t :: ts => relocate f t :: relocateAll f ts

end

@[simp]
theorem relocateAll_eq_map (types : List TypeRef) :
    relocateAll f types = types.map (relocate f) := by
  induction types with
  | nil => rfl
  | cons t ts ih => exact congrArg (relocate f t :: ·) ih

/-- A type is named alike wherever it stands. -/
theorem simpleName_relocate (t : TypeRef) : (t.relocate f).simpleName = t.simpleName := by
  cases t
  rfl

theorem args_relocate (t : TypeRef) : (t.relocate f).args = t.args.map (relocate f) := by
  cases t
  exact relocateAll_eq_map f _

theorem span_relocate (t : TypeRef) : (t.relocate f).span = t.span.relocate f := by
  cases t
  rfl

mutual

/-- A type is shown alike wherever it stands. -/
theorem display_relocate : (t : TypeRef) → (t.relocate f).display = t.display
  | ⟨span, name, args, nullable⟩ => by
    have hArgs := displayAll_relocate args
    have hEmpty : (args.map (relocate f)).isEmpty = args.isEmpty := List.isEmpty_map
    unfold display relocate
    simp only [relocateAll_eq_map]
    rw [hArgs, hEmpty]

theorem displayAll_relocate : (types : List TypeRef) →
    displayAll (types.map (relocate f)) = displayAll types
  | [] => rfl
  | [t] => display_relocate t
  | t :: u :: types => by
    have hRest := displayAll_relocate (u :: types)
    show (t.relocate f).display ++ [',', ' '] ++
      displayAll ((u :: types).map (relocate f)) = _
    rw [display_relocate t, hRest]
    rfl

end

theorem text_relocate (t : TypeRef) : (t.relocate f).text = t.text :=
  congrArg String.ofList (display_relocate f t)

end TypeRef

/-- A phrase with other positions. -/
def Phrase.relocate (f : UInt32 → UInt32) : {c : Category} → Phrase c → Phrase c
  | _, .identifier span name resolved => .identifier (span.relocate f) name resolved
  | _, .this span => .this (span.relocate f)
  | _, .literal span value => .literal (span.relocate f) value
  | _, .interpolation span expressions => .interpolation (span.relocate f) (expressions.relocate f)
  | _, .listLiteral span typeArgs isConst elements =>
    .listLiteral (span.relocate f) (typeArgs.map (TypeRef.relocate f)) isConst (elements.relocate f)
  | _, .mapLiteral span typeArgs isConst entries =>
    .mapLiteral (span.relocate f) (typeArgs.map (TypeRef.relocate f)) isConst (entries.relocate f)
  | _, .spread span operand nullAware => .spread (span.relocate f) (operand.relocate f) nullAware
  | _, .property span target name nullAware =>
    .property (span.relocate f) (target.relocate f) (name.relocate f) nullAware
  | _, .index span target position =>
    .index (span.relocate f) (target.relocate f) (position.relocate f)
  | _, .call span target method typeArgs args nullAware resolved =>
    .call (span.relocate f) (target.relocate f) (method.relocate f)
      (typeArgs.map (TypeRef.relocate f)) (args.relocate f) nullAware resolved
  | _, .create span type named args isConst =>
    .create (span.relocate f) (type.relocate f) (named.map (Name.relocate f)) (args.relocate f)
      isConst
  | _, .function fn => .function (fn.relocate f)
  | _, .assign span operator target value =>
    .assign (span.relocate f) operator (target.relocate f) (value.relocate f)
  | _, .update span operator isBefore operand =>
    .update (span.relocate f) operator isBefore (operand.relocate f)
  | _, .conditional span test consequent alternate =>
    .conditional (span.relocate f) (test.relocate f) (consequent.relocate f) (alternate.relocate f)
  | _, .switchExpr span discriminant cases =>
    .switchExpr (span.relocate f) (discriminant.relocate f) (cases.relocate f)
  | _, .binary span operator left right =>
    .binary (span.relocate f) operator (left.relocate f) (right.relocate f)
  | _, .unary span operator operand => .unary (span.relocate f) operator (operand.relocate f)
  | _, .await span operand => .await (span.relocate f) (operand.relocate f)
  | _, .paren span expression => .paren (span.relocate f) (expression.relocate f)
  | _, .cascade span target sections =>
    .cascade (span.relocate f) (target.relocate f) (sections.relocate f)
  | _, .cascadeReceiver span => .cascadeReceiver (span.relocate f)
  | _, .typeTest span kind expression type =>
    .typeTest (span.relocate f) kind (expression.relocate f) (type.relocate f)
  | _, .throw span operand => .throw (span.relocate f) (operand.relocate f)
  | _, .blockStmt inner => .blockStmt (inner.relocate f)
  | _, .expressionStmt span expression => .expressionStmt (span.relocate f) (expression.relocate f)
  | _, .variableStmt decl => .variableStmt (decl.relocate f)
  | _, .patternStmt span keywords pattern init =>
    .patternStmt (span.relocate f) (keywords.map (Keyword.relocate f)) (pattern.relocate f)
      (init.relocate f)
  | _, .functionStmt decl => .functionStmt (decl.relocate f)
  | _, .ifStmt span test consequent alternate =>
    .ifStmt (span.relocate f) (test.relocate f) (consequent.relocate f) (alternate.relocate f)
  | _, .forStmt span init test step inner =>
    .forStmt (span.relocate f) (init.relocate f) (test.relocate f) (step.relocate f)
      (inner.relocate f)
  | _, .forInStmt span binding iterable isAwait inner =>
    .forInStmt (span.relocate f) (binding.relocate f) (iterable.relocate f) isAwait
      (inner.relocate f)
  | _, .whileStmt span test inner =>
    .whileStmt (span.relocate f) (test.relocate f) (inner.relocate f)
  | _, .doWhileStmt span inner test =>
    .doWhileStmt (span.relocate f) (inner.relocate f) (test.relocate f)
  | _, .switchStmt span discriminant cases =>
    .switchStmt (span.relocate f) (discriminant.relocate f) (cases.relocate f)
  | _, .tryStmt span inner handlers finalizer =>
    .tryStmt (span.relocate f) (inner.relocate f) (handlers.relocate f) (finalizer.relocate f)
  | _, .returnStmt span operand => .returnStmt (span.relocate f) (operand.relocate f)
  | _, .breakStmt span label => .breakStmt (span.relocate f) (label.map (Name.relocate f))
  | _, .continueStmt span label => .continueStmt (span.relocate f) (label.map (Name.relocate f))
  | _, .emptyStmt span => .emptyStmt (span.relocate f)
  | _, .variablePattern span name type =>
    .variablePattern (span.relocate f) (name.relocate f) (type.map (TypeRef.relocate f))
  | _, .objectPattern span type fields =>
    .objectPattern (span.relocate f) (type.relocate f) (fields.relocate f)
  | _, .recordPattern span fields => .recordPattern (span.relocate f) (fields.relocate f)
  | _, .listPattern span elements => .listPattern (span.relocate f) (elements.relocate f)
  | _, .constantPattern span expression =>
    .constantPattern (span.relocate f) (expression.relocate f)
  | _, .wildcardPattern span => .wildcardPattern (span.relocate f)
  | _, .block span statements => .block (span.relocate f) (statements.relocate f)
  | _, .body span modifier kind => .body (span.relocate f) modifier (kind.relocate f)
  | _, .blockBody inner => .blockBody (inner.relocate f)
  | _, .exprBody expression => .exprBody (expression.relocate f)
  | _, .noBody => .noBody
  | _, .param span name type named default =>
    .param (span.relocate f) (name.relocate f) (type.map (TypeRef.relocate f)) named
      (default.relocate f)
  | _, .declarator span name init =>
    .declarator (span.relocate f) (name.relocate f) (init.relocate f)
  | _, .argument label value => .argument (label.map (Name.relocate f)) (value.relocate f)
  | _, .mapEntry key value => .mapEntry (key.relocate f) (value.relocate f)
  | _, .patternField label pattern =>
    .patternField (label.map (Name.relocate f)) (pattern.relocate f)
  | _, .switchCase span pattern guard inner =>
    .switchCase (span.relocate f) (pattern.relocate f) (guard.relocate f) (inner.relocate f)
  | _, .switchExprCase span pattern guard inner =>
    .switchExprCase (span.relocate f) (pattern.relocate f) (guard.relocate f) (inner.relocate f)
  | _, .catchClause span exceptionType caught inner =>
    .catchClause (span.relocate f) (exceptionType.map (TypeRef.relocate f))
      (caught.map (Name.relocate f)) (inner.relocate f)
  | _, .variableDecl span keywords type declared =>
    .variableDecl (span.relocate f) (keywords.map (Keyword.relocate f))
      (type.map (TypeRef.relocate f)) (declared.relocate f)
  | _, .functionDecl span name returnType params inner =>
    .functionDecl (span.relocate f) (name.relocate f) (returnType.map (TypeRef.relocate f))
      (params.relocate f) (inner.relocate f)
  | _, .closure span params inner =>
    .closure (span.relocate f) (params.relocate f) (inner.relocate f)
  | _, .nil => .nil
  | _, .cons head tail => .cons (head.relocate f) (tail.relocate f)
  | _, .none => .none
  | _, .some value => .some (value.relocate f)

/-! Declarations with other positions. -/

def FieldDecl.relocate (d : FieldDecl) : FieldDecl where
  span := d.span.relocate f
  keywords := d.keywords.map (Keyword.relocate f)
  type := d.type.map (TypeRef.relocate f)
  declared := d.declared.relocate f

def MethodDecl.relocate (m : MethodDecl) : MethodDecl where
  span := m.span.relocate f
  name := m.name.relocate f
  kind := m.kind
  keywords := m.keywords.map (Keyword.relocate f)
  returnType := m.returnType.map (TypeRef.relocate f)
  params := m.params.relocate f
  body := m.body.relocate f

def ConstructorDecl.relocate (k : ConstructorDecl) : ConstructorDecl where
  span := k.span.relocate f
  name := k.name.map (Name.relocate f)
  isConst := k.isConst
  params := k.params.relocate f
  initializers := k.initializers.relocate f
  body := k.body.relocate f

def Member.relocate : Member → Member
  | .field d => .field (d.relocate f)
  | .method m => .method (m.relocate f)
  | .constructor k => .constructor (k.relocate f)

def ClassDecl.relocate (c : ClassDecl) : ClassDecl where
  span := c.span.relocate f
  name := c.name.relocate f
  superclass := c.superclass.map (TypeRef.relocate f)
  isAbstract := c.isAbstract
  members := c.members.map (Member.relocate f)

def Declaration.relocate : Declaration → Declaration
  | .class c => .class (c.relocate f)
  | .function d => .function (d.relocate f)
  | .variable d => .variable (d.relocate f)

/-- A unit with every start and every end moved. -/
def CompilationUnit.relocate (u : CompilationUnit) : CompilationUnit :=
  { u with declarations := u.declarations.map (Declaration.relocate f) }

/-! Findings at other positions. -/

def TextEdit.relocate (e : TextEdit) : TextEdit := { e with span := e.span.relocate f }

def Fix.relocate (x : Fix) : Fix := { x with edits := x.edits.map (TextEdit.relocate f) }

def Label.relocate (l : Label) : Label := { l with span := l.span.relocate f }

/-- A finding at another position, with the labels and the edits of its fix moved. -/
def Diagnostic.relocate (d : Diagnostic) : Diagnostic :=
  { d with
    span := d.span.relocate f
    labels := d.labels.map (Label.relocate f)
    fix := d.fix.map (Fix.relocate f) }

def LintResult.relocate (r : LintResult) : LintResult :=
  { r with diagnostics := r.diagnostics.map (Diagnostic.relocate f) }

/-- Moved findings are as many and as bad. -/
theorem LintResult.ofDiagnostics_relocate (file : String) (diagnostics : List Diagnostic) :
    ofDiagnostics file (diagnostics.map (Diagnostic.relocate f)) =
      (ofDiagnostics file diagnostics).relocate f := by
  have hCount : countSeverity .error (diagnostics.map (Diagnostic.relocate f)) =
      countSeverity .error diagnostics := List.countP_map ..
  unfold ofDiagnostics
  rw [hCount, List.length_map]
  rfl

end SetupLint
