import SetupLint.Tree.Phrase

/-! What a phrase consists of, and recursion over it. Lists and optional parts are
phrases, too: the parts of a list are its head and its tail. So a part is known by
the numbers of the parts on the way to it. -/
namespace SetupLint

/-- A phrase of any category. -/
structure Node where
  {category : Category}
  phrase : Phrase category

/-- The way to a phrase from one around it: at each step the number of a part. -/
abbrev Address := List Nat

namespace Phrase

/-- The phrases that a phrase consists of, in the order of the source. -/
def parts : {c : Category} → Phrase c → List Node
  | _, .identifier .. => []
  | _, .this .. => []
  | _, .literal .. => []
  | _, .interpolation _ expressions => [⟨expressions⟩]
  | _, .listLiteral _ _ _ elements => [⟨elements⟩]
  | _, .mapLiteral _ _ _ entries => [⟨entries⟩]
  | _, .spread _ operand _ => [⟨operand⟩]
  | _, .property _ target _ _ => [⟨target⟩]
  | _, .index _ target position => [⟨target⟩, ⟨position⟩]
  | _, .call _ target _ _ args _ _ => [⟨target⟩, ⟨args⟩]
  | _, .create _ _ _ args _ => [⟨args⟩]
  | _, .function fn => [⟨fn⟩]
  | _, .assign _ _ target value => [⟨target⟩, ⟨value⟩]
  | _, .update _ _ _ operand => [⟨operand⟩]
  | _, .conditional _ test consequent alternate => [⟨test⟩, ⟨consequent⟩, ⟨alternate⟩]
  | _, .switchExpr _ discriminant cases => [⟨discriminant⟩, ⟨cases⟩]
  | _, .binary _ _ left right => [⟨left⟩, ⟨right⟩]
  | _, .unary _ _ operand => [⟨operand⟩]
  | _, .await _ operand => [⟨operand⟩]
  | _, .paren _ expression => [⟨expression⟩]
  | _, .cascade _ target sections => [⟨target⟩, ⟨sections⟩]
  | _, .cascadeReceiver .. => []
  | _, .typeTest _ _ expression _ => [⟨expression⟩]
  | _, .throw _ operand => [⟨operand⟩]
  | _, .blockStmt inner => [⟨inner⟩]
  | _, .expressionStmt _ expression => [⟨expression⟩]
  | _, .variableStmt decl => [⟨decl⟩]
  | _, .patternStmt _ _ pattern init => [⟨pattern⟩, ⟨init⟩]
  | _, .functionStmt decl => [⟨decl⟩]
  | _, .ifStmt _ test consequent alternate => [⟨test⟩, ⟨consequent⟩, ⟨alternate⟩]
  | _, .forStmt _ init test step inner => [⟨init⟩, ⟨test⟩, ⟨step⟩, ⟨inner⟩]
  | _, .forInStmt _ binding iterable _ inner => [⟨binding⟩, ⟨iterable⟩, ⟨inner⟩]
  | _, .whileStmt _ test inner => [⟨test⟩, ⟨inner⟩]
  | _, .doWhileStmt _ inner test => [⟨inner⟩, ⟨test⟩]
  | _, .switchStmt _ discriminant cases => [⟨discriminant⟩, ⟨cases⟩]
  | _, .tryStmt _ inner handlers finalizer => [⟨inner⟩, ⟨handlers⟩, ⟨finalizer⟩]
  | _, .returnStmt _ operand => [⟨operand⟩]
  | _, .breakStmt .. => []
  | _, .continueStmt .. => []
  | _, .emptyStmt .. => []
  | _, .variablePattern .. => []
  | _, .objectPattern _ _ fields => [⟨fields⟩]
  | _, .recordPattern _ fields => [⟨fields⟩]
  | _, .listPattern _ elements => [⟨elements⟩]
  | _, .constantPattern _ expression => [⟨expression⟩]
  | _, .wildcardPattern .. => []
  | _, .block _ statements => [⟨statements⟩]
  | _, .body _ _ kind => [⟨kind⟩]
  | _, .blockBody inner => [⟨inner⟩]
  | _, .exprBody expression => [⟨expression⟩]
  | _, .noBody => []
  | _, .param _ _ _ _ default => [⟨default⟩]
  | _, .declarator _ _ init => [⟨init⟩]
  | _, .argument _ value => [⟨value⟩]
  | _, .mapEntry key value => [⟨key⟩, ⟨value⟩]
  | _, .patternField _ pattern => [⟨pattern⟩]
  | _, .switchCase _ pattern guard inner => [⟨pattern⟩, ⟨guard⟩, ⟨inner⟩]
  | _, .switchExprCase _ pattern guard inner => [⟨pattern⟩, ⟨guard⟩, ⟨inner⟩]
  | _, .catchClause _ _ _ inner => [⟨inner⟩]
  | _, .variableDecl _ _ _ declared => [⟨declared⟩]
  | _, .functionDecl _ _ _ params inner => [⟨params⟩, ⟨inner⟩]
  | _, .closure _ params inner => [⟨params⟩, ⟨inner⟩]
  | _, .nil => []
  | _, .cons head tail => [⟨head⟩, ⟨tail⟩]
  | _, .none => []
  | _, .some value => [⟨value⟩]

/-- Recursion over a phrase: the result for a phrase comes from the results for its
parts. -/
def fold {α : Type} (f : {c : Category} → Phrase c → List α → α) :
    {c : Category} → Phrase c → α
  | _, p@(.identifier ..) => f p []
  | _, p@(.this ..) => f p []
  | _, p@(.literal ..) => f p []
  | _, p@(.interpolation _ expressions) => f p [expressions.fold f]
  | _, p@(.listLiteral _ _ _ elements) => f p [elements.fold f]
  | _, p@(.mapLiteral _ _ _ entries) => f p [entries.fold f]
  | _, p@(.spread _ operand _) => f p [operand.fold f]
  | _, p@(.property _ target _ _) => f p [target.fold f]
  | _, p@(.index _ target position) => f p [target.fold f, position.fold f]
  | _, p@(.call _ target _ _ args _ _) => f p [target.fold f, args.fold f]
  | _, p@(.create _ _ _ args _) => f p [args.fold f]
  | _, p@(.function fn) => f p [fn.fold f]
  | _, p@(.assign _ _ target value) => f p [target.fold f, value.fold f]
  | _, p@(.update _ _ _ operand) => f p [operand.fold f]
  | _, p@(.conditional _ test consequent alternate) =>
    f p [test.fold f, consequent.fold f, alternate.fold f]
  | _, p@(.switchExpr _ discriminant cases) => f p [discriminant.fold f, cases.fold f]
  | _, p@(.binary _ _ left right) => f p [left.fold f, right.fold f]
  | _, p@(.unary _ _ operand) => f p [operand.fold f]
  | _, p@(.await _ operand) => f p [operand.fold f]
  | _, p@(.paren _ expression) => f p [expression.fold f]
  | _, p@(.cascade _ target sections) => f p [target.fold f, sections.fold f]
  | _, p@(.cascadeReceiver ..) => f p []
  | _, p@(.typeTest _ _ expression _) => f p [expression.fold f]
  | _, p@(.throw _ operand) => f p [operand.fold f]
  | _, p@(.blockStmt inner) => f p [inner.fold f]
  | _, p@(.expressionStmt _ expression) => f p [expression.fold f]
  | _, p@(.variableStmt decl) => f p [decl.fold f]
  | _, p@(.patternStmt _ _ pattern init) => f p [pattern.fold f, init.fold f]
  | _, p@(.functionStmt decl) => f p [decl.fold f]
  | _, p@(.ifStmt _ test consequent alternate) =>
    f p [test.fold f, consequent.fold f, alternate.fold f]
  | _, p@(.forStmt _ init test step inner) =>
    f p [init.fold f, test.fold f, step.fold f, inner.fold f]
  | _, p@(.forInStmt _ binding iterable _ inner) =>
    f p [binding.fold f, iterable.fold f, inner.fold f]
  | _, p@(.whileStmt _ test inner) => f p [test.fold f, inner.fold f]
  | _, p@(.doWhileStmt _ inner test) => f p [inner.fold f, test.fold f]
  | _, p@(.switchStmt _ discriminant cases) => f p [discriminant.fold f, cases.fold f]
  | _, p@(.tryStmt _ inner handlers finalizer) =>
    f p [inner.fold f, handlers.fold f, finalizer.fold f]
  | _, p@(.returnStmt _ operand) => f p [operand.fold f]
  | _, p@(.breakStmt ..) => f p []
  | _, p@(.continueStmt ..) => f p []
  | _, p@(.emptyStmt ..) => f p []
  | _, p@(.variablePattern ..) => f p []
  | _, p@(.objectPattern _ _ fields) => f p [fields.fold f]
  | _, p@(.recordPattern _ fields) => f p [fields.fold f]
  | _, p@(.listPattern _ elements) => f p [elements.fold f]
  | _, p@(.constantPattern _ expression) => f p [expression.fold f]
  | _, p@(.wildcardPattern ..) => f p []
  | _, p@(.block _ statements) => f p [statements.fold f]
  | _, p@(.body _ _ kind) => f p [kind.fold f]
  | _, p@(.blockBody inner) => f p [inner.fold f]
  | _, p@(.exprBody expression) => f p [expression.fold f]
  | _, p@.noBody => f p []
  | _, p@(.param _ _ _ _ default) => f p [default.fold f]
  | _, p@(.declarator _ _ init) => f p [init.fold f]
  | _, p@(.argument _ value) => f p [value.fold f]
  | _, p@(.mapEntry key value) => f p [key.fold f, value.fold f]
  | _, p@(.patternField _ pattern) => f p [pattern.fold f]
  | _, p@(.switchCase _ pattern guard inner) => f p [pattern.fold f, guard.fold f, inner.fold f]
  | _, p@(.switchExprCase _ pattern guard inner) => f p [pattern.fold f, guard.fold f, inner.fold f]
  | _, p@(.catchClause _ _ _ inner) => f p [inner.fold f]
  | _, p@(.variableDecl _ _ _ declared) => f p [declared.fold f]
  | _, p@(.functionDecl _ _ _ params inner) => f p [params.fold f, inner.fold f]
  | _, p@(.closure _ params inner) => f p [params.fold f, inner.fold f]
  | _, p@.nil => f p []
  | _, p@(.cons head tail) => f p [head.fold f, tail.fold f]
  | _, p@.none => f p []
  | _, p@(.some value) => f p [value.fold f]

end Phrase
end SetupLint
