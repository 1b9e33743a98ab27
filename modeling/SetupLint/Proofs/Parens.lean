import SetupLint.Proofs.ChangedRules

/-! Parentheses do not matter to the linter. Two units differ in nothing but parentheses iff they
are the same without them, and then they have the same result. -/
namespace SetupLint

namespace Phrase

/-- A phrase without the parentheses in it. -/
def bare : {c : Category} → Phrase c → Phrase c
  | _, p@(.identifier ..) => p
  | _, p@(.this ..) => p
  | _, p@(.literal ..) => p
  | _, .interpolation span expressions => .interpolation span expressions.bare
  | _, .listLiteral span typeArgs isConst elements =>
    .listLiteral span typeArgs isConst elements.bare
  | _, .mapLiteral span typeArgs isConst entries => .mapLiteral span typeArgs isConst entries.bare
  | _, .spread span operand nullAware => .spread span operand.bare nullAware
  | _, .property span target name nullAware => .property span target.bare name nullAware
  | _, .index span target position => .index span target.bare position.bare
  | _, .call span target method typeArgs args nullAware resolved =>
    .call span target.bare method typeArgs args.bare nullAware resolved
  | _, .create span type named args isConst => .create span type named args.bare isConst
  | _, .function fn => .function fn.bare
  | _, .assign span operator target value => .assign span operator target.bare value.bare
  | _, .update span operator isBefore operand => .update span operator isBefore operand.bare
  | _, .conditional span test consequent alternate =>
    .conditional span test.bare consequent.bare alternate.bare
  | _, .switchExpr span discriminant cases => .switchExpr span discriminant.bare cases.bare
  | _, .binary span operator left right => .binary span operator left.bare right.bare
  | _, .unary span operator operand => .unary span operator operand.bare
  | _, .await span operand => .await span operand.bare
  | _, .paren _ expression => expression.bare
  | _, .cascade span target sections => .cascade span target.bare sections.bare
  | _, p@(.cascadeReceiver ..) => p
  | _, .typeTest span kind expression type => .typeTest span kind expression.bare type
  | _, .throw span operand => .throw span operand.bare
  | _, .blockStmt inner => .blockStmt inner.bare
  | _, .expressionStmt span expression => .expressionStmt span expression.bare
  | _, .variableStmt decl => .variableStmt decl.bare
  | _, .patternStmt span keywords pattern init =>
    .patternStmt span keywords pattern.bare init.bare
  | _, .functionStmt decl => .functionStmt decl.bare
  | _, .ifStmt span test consequent alternate =>
    .ifStmt span test.bare consequent.bare alternate.bare
  | _, .forStmt span init test step inner =>
    .forStmt span init.bare test.bare step.bare inner.bare
  | _, .forInStmt span binding iterable isAwait inner =>
    .forInStmt span binding.bare iterable.bare isAwait inner.bare
  | _, .whileStmt span test inner => .whileStmt span test.bare inner.bare
  | _, .doWhileStmt span inner test => .doWhileStmt span inner.bare test.bare
  | _, .switchStmt span discriminant cases => .switchStmt span discriminant.bare cases.bare
  | _, .tryStmt span inner handlers finalizer =>
    .tryStmt span inner.bare handlers.bare finalizer.bare
  | _, .returnStmt span operand => .returnStmt span operand.bare
  | _, p@(.breakStmt ..) => p
  | _, p@(.continueStmt ..) => p
  | _, p@(.emptyStmt ..) => p
  | _, p@(.variablePattern ..) => p
  | _, .objectPattern span type fields => .objectPattern span type fields.bare
  | _, .recordPattern span fields => .recordPattern span fields.bare
  | _, .listPattern span elements => .listPattern span elements.bare
  | _, .constantPattern span expression => .constantPattern span expression.bare
  | _, p@(.wildcardPattern ..) => p
  | _, .block span statements => .block span statements.bare
  | _, .body span modifier kind => .body span modifier kind.bare
  | _, .blockBody inner => .blockBody inner.bare
  | _, .exprBody expression => .exprBody expression.bare
  | _, .noBody => .noBody
  | _, .param span name type named default => .param span name type named default.bare
  | _, .declarator span name init => .declarator span name init.bare
  | _, .argument label value => .argument label value.bare
  | _, .mapEntry key value => .mapEntry key.bare value.bare
  | _, .patternField label pattern => .patternField label pattern.bare
  | _, .switchCase span pattern guard inner => .switchCase span pattern.bare guard.bare inner.bare
  | _, .switchExprCase span pattern guard inner =>
    .switchExprCase span pattern.bare guard.bare inner.bare
  | _, .catchClause span exceptionType caught inner =>
    .catchClause span exceptionType caught inner.bare
  | _, .variableDecl span keywords type declared => .variableDecl span keywords type declared.bare
  | _, .functionDecl span name returnType params inner =>
    .functionDecl span name returnType params.bare inner.bare
  | _, .closure span params inner => .closure span params.bare inner.bare
  | _, .nil => .nil
  | _, .cons head tail => .cons head.bare tail.bare
  | _, .none => .none
  | _, .some value => .some value.bare

end Phrase

/-! Declarations without the parentheses in them. -/

def FieldDecl.bare (f : FieldDecl) : FieldDecl := { f with declared := f.declared.bare }

def MethodDecl.bare (m : MethodDecl) : MethodDecl :=
  { m with params := m.params.bare, body := m.body.bare }

def ConstructorDecl.bare (k : ConstructorDecl) : ConstructorDecl :=
  { k with params := k.params.bare, initializers := k.initializers.bare, body := k.body.bare }

def Member.bare : Member → Member
  | .field f => .field f.bare
  | .method m => .method m.bare
  | .constructor k => .constructor k.bare

def ClassDecl.bare (c : ClassDecl) : ClassDecl := { c with members := c.members.map Member.bare }

def Declaration.bare : Declaration → Declaration
  | .class c => .class c.bare
  | .function f => .function f.bare
  | .variable v => .variable v.bare

/-- A unit without the parentheses in it. -/
def CompilationUnit.bare (u : CompilationUnit) : CompilationUnit :=
  { u with declarations := u.declarations.map Declaration.bare }

/-! Without parentheses nothing is left for a change that drops them. -/

/-- The change that drops parentheses. -/
def TreeChange.toBare : TreeChange := ⟨id, true, false⟩

/-- What has no parentheses is changed like what has lost them. -/
theorem Phrase.change_bare {c : Category} (p : Phrase c) :
    p.bare.change .toBare = p.change .toBare := by
  induction p <;> first
    | rfl
    | assumption
    | (conv_lhs => whnf
       conv_rhs => whnf
       congr 1)

theorem Member.change_bare (m : Member) : m.bare.change .toBare = m.change .toBare := by
  cases m with
  | field f => simp only [bare, change, FieldDecl.bare, FieldDecl.change, Phrase.change_bare]
  | method m => simp only [bare, change, MethodDecl.bare, MethodDecl.change, Phrase.change_bare]
  | constructor k =>
      simp only [bare, change, ConstructorDecl.bare, ConstructorDecl.change, Phrase.change_bare]

theorem Declaration.change_bare (d : Declaration) :
    d.bare.change .toBare = d.change .toBare := by
  cases d with
  | «class» c =>
      simp only [bare, change, ClassDecl.bare, ClassDecl.change, List.map_map, Function.comp_def,
        Member.change_bare]
  | function f => exact congrArg Declaration.function f.change_bare
  | «variable» v => exact congrArg Declaration.variable v.change_bare

theorem CompilationUnit.change_bare (u : CompilationUnit) :
    u.bare.change .toBare = u.change .toBare := by
  simp only [bare, change, List.map_map, Function.comp_def, Declaration.change_bare]

/-- Without its parentheses a unit has the same result. -/
theorem Linter.lint_bare (l : Linter) (u : CompilationUnit) : l.lint u.bare = l.lint u := by
  have hFindings : l.findings u.bare = l.findings u :=
    List.flatMap_congr fun _ _ =>
      Rule.findings_eq_of_change_eq (fun _ => rfl) l.catalogs u.change_bare
  unfold lint
  rw [hFindings]
  rfl

/-- Units that differ in nothing but parentheses have the same result. -/
theorem Linter.lint_eq_of_bare_eq (l : Linter) {u v : CompilationUnit} (h : u.bare = v.bare) :
    l.lint u = l.lint v := by
  rw [← l.lint_bare u, h, l.lint_bare]

/-- A component whose builder closure has a call in it that changes a held value. The closure and
the held value may be wrapped in parentheses. -/
def shufflingUnit (wrap : Expr → Expr) : CompilationUnit :=
  let name (text : String) : Name := ⟨text, .zero⟩
  let block (statements : List Stmt) : Body :=
    .body .zero .sync (.blockBody (.block .zero (.ofList statements)))
  let held : Expr := .property .zero (.identifier .zero "items" none) (name "value") false
  let shuffle : Expr := .call .zero (.some (wrap held)) (name "shuffle") [] .nil false none
  let builder : Expr := .function (.closure .zero .nil (block [.expressionStmt .zero shuffle]))
  { path := "lib/deck.dart"
    declarations := [.class
      { span := .zero
        name := name "Deck"
        superclass := some ⟨.zero, "CompositionWidget", [], false⟩
        isAbstract := false
        members := [.method
          { span := .zero
            name := name "setup"
            kind := .method
            keywords := []
            returnType := none
            params := .nil
            body := block [.returnStmt .zero (.some (wrap builder))] }] }] }

/-- Two pairs of parentheses around the closure and the held value do not matter: there is logic
in the builder closure, and it changes the held value. -/
theorem lint_shufflingUnit :
    (shufflingUnit id).bare = (shufflingUnit fun e => .paren .zero (.paren .zero e)).bare ∧
      ({} : Linter).lint (shufflingUnit id) =
        ({} : Linter).lint (shufflingUnit fun e => .paren .zero (.paren .zero e)) ∧
      (({} : Linter).lint (shufflingUnit id)).warningCount = 2 :=
  ⟨rfl, Linter.lint_eq_of_bare_eq {} rfl, by decide⟩

end SetupLint
