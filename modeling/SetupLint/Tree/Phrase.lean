import SetupLint.Tree.Resolution
import SetupLint.Tree.Word

/-! Expressions, statements, patterns and all that occurs inside them. They are
one family, indexed by what a phrase is, and lists and optional parts belong to
it. So a function on the whole tree is a single recursion and a fact about the
whole tree a single induction. -/
namespace SetupLint

/-- What a phrase is. -/
inductive Category where
  | expr
  | stmt
  | pattern
  | block
  | body
  | bodyKind
  | param
  | declarator
  | argument
  | mapEntry
  | patternField
  | switchCase
  | switchExprCase
  | catchClause
  | variableDecl
  | functionDecl
  | closure
  | list (c : Category)
  | option (c : Category)
deriving DecidableEq

/-- A phrase of some category. -/
inductive Phrase : Category → Type where
  /-- A variable, field, function or type by its bare name. -/
  | identifier (span : Span) (name : String) (resolved : Option Resolution) : Phrase .expr
  | this (span : Span) : Phrase .expr
  | literal (span : Span) (value : LiteralValue) : Phrase .expr
  /-- A string with embedded expressions, of which only these are kept. -/
  | interpolation (span : Span) (expressions : Phrase (.list .expr)) : Phrase .expr
  | listLiteral (span : Span) (typeArgs : List TypeRef) (isConst : Bool)
      (elements : Phrase (.list .expr)) : Phrase .expr
  /-- A map, or a set as a map without values. -/
  | mapLiteral (span : Span) (typeArgs : List TypeRef) (isConst : Bool)
      (entries : Phrase (.list .mapEntry)) : Phrase .expr
  | spread (span : Span) (argument : Phrase .expr) (nullAware : Bool) : Phrase .expr
  /-- `target.property`. -/
  | property (span : Span) (target : Phrase .expr) (name : Name) (nullAware : Bool) : Phrase .expr
  /-- `target[index]`. -/
  | index (span : Span) (target : Phrase .expr) (index : Phrase .expr) : Phrase .expr
  /-- `target.method(args)`, or `method(args)` without a target. -/
  | call (span : Span) (target : Phrase (.option .expr)) (method : Name) (typeArgs : List TypeRef)
      (args : Phrase (.list .argument)) (nullAware : Bool) (resolved : Option Resolution) :
      Phrase .expr
  /-- `Type.named(args)`. -/
  | create (span : Span) (type : TypeRef) (constructor : Option Name)
      (args : Phrase (.list .argument)) (isConst : Bool) : Phrase .expr
  | function (closure : Phrase .closure) : Phrase .expr
  | assign (span : Span) (operator : AssignOp) (target : Phrase .expr) (value : Phrase .expr) :
      Phrase .expr
  | update (span : Span) (operator : UpdateOp) (isBefore : Bool) (argument : Phrase .expr) :
      Phrase .expr
  | conditional (span : Span) (test : Phrase .expr) (consequent : Phrase .expr)
      (alternate : Phrase .expr) : Phrase .expr
  | switchExpr (span : Span) (discriminant : Phrase .expr)
      (cases : Phrase (.list .switchExprCase)) : Phrase .expr
  | binary (span : Span) (operator : String) (left : Phrase .expr) (right : Phrase .expr) :
      Phrase .expr
  | unary (span : Span) (operator : UnaryOp) (argument : Phrase .expr) : Phrase .expr
  | await (span : Span) (argument : Phrase .expr) : Phrase .expr
  | paren (span : Span) (expression : Phrase .expr) : Phrase .expr
  /-- `target..a()..b = c`. -/
  | cascade (span : Span) (target : Phrase .expr) (sections : Phrase (.list .expr)) : Phrase .expr
  /-- The target of a cascade where its sections start. -/
  | cascadeReceiver (span : Span) : Phrase .expr
  | typeTest (span : Span) (kind : TypeTestKind) (expression : Phrase .expr) (type : TypeRef) :
      Phrase .expr
  | throw (span : Span) (argument : Phrase .expr) : Phrase .expr
  | blockStmt (block : Phrase .block) : Phrase .stmt
  | expressionStmt (span : Span) (expression : Phrase .expr) : Phrase .stmt
  | variableStmt (decl : Phrase .variableDecl) : Phrase .stmt
  /-- A declaration that takes a value apart. -/
  | patternStmt (span : Span) (keywords : List Keyword) (pattern : Phrase .pattern)
      (init : Phrase .expr) : Phrase .stmt
  | functionStmt (decl : Phrase .functionDecl) : Phrase .stmt
  | ifStmt (span : Span) (test : Phrase .expr) (consequent : Phrase .stmt)
      (alternate : Phrase (.option .stmt)) : Phrase .stmt
  | forStmt (span : Span) (init : Phrase (.option .stmt)) (test : Phrase (.option .expr))
      (update : Phrase (.list .expr)) (body : Phrase .stmt) : Phrase .stmt
  | forInStmt (span : Span) (binding : Phrase .pattern) (iterable : Phrase .expr) (isAwait : Bool)
      (body : Phrase .stmt) : Phrase .stmt
  | whileStmt (span : Span) (test : Phrase .expr) (body : Phrase .stmt) : Phrase .stmt
  | doWhileStmt (span : Span) (body : Phrase .stmt) (test : Phrase .expr) : Phrase .stmt
  | switchStmt (span : Span) (discriminant : Phrase .expr) (cases : Phrase (.list .switchCase)) :
      Phrase .stmt
  | tryStmt (span : Span) (block : Phrase .block) (handlers : Phrase (.list .catchClause))
      (finalizer : Phrase (.option .block)) : Phrase .stmt
  | returnStmt (span : Span) (argument : Phrase (.option .expr)) : Phrase .stmt
  | breakStmt (span : Span) (label : Option Name) : Phrase .stmt
  | continueStmt (span : Span) (label : Option Name) : Phrase .stmt
  | emptyStmt (span : Span) : Phrase .stmt
  /-- A single variable. -/
  | variablePattern (span : Span) (name : Name) (type : Option TypeRef) : Phrase .pattern
  | objectPattern (span : Span) (type : TypeRef) (fields : Phrase (.list .patternField)) :
      Phrase .pattern
  | recordPattern (span : Span) (fields : Phrase (.list .patternField)) : Phrase .pattern
  | listPattern (span : Span) (elements : Phrase (.list .pattern)) : Phrase .pattern
  /-- A value to match. -/
  | constantPattern (span : Span) (expression : Phrase .expr) : Phrase .pattern
  | wildcardPattern (span : Span) : Phrase .pattern
  | block (span : Span) (statements : Phrase (.list .stmt)) : Phrase .block
  | body (span : Span) (modifier : BodyModifier) (kind : Phrase .bodyKind) : Phrase .body
  | blockBody (block : Phrase .block) : Phrase .bodyKind
  /-- `=> expression`. -/
  | exprBody (expression : Phrase .expr) : Phrase .bodyKind
  | noBody : Phrase .bodyKind
  | param (span : Span) (name : Name) (type : Option TypeRef) (named : Bool)
      (default : Phrase (.option .expr)) : Phrase .param
  /-- `name = init`. -/
  | declarator (span : Span) (name : Name) (init : Phrase (.option .expr)) : Phrase .declarator
  | argument (label : Option Name) (value : Phrase .expr) : Phrase .argument
  | mapEntry (key : Phrase .expr) (value : Phrase (.option .expr)) : Phrase .mapEntry
  | patternField (label : Option Name) (pattern : Phrase .pattern) : Phrase .patternField
  | switchCase (span : Span) (pattern : Phrase (.option .pattern)) (guard : Phrase (.option .expr))
      (body : Phrase (.list .stmt)) : Phrase .switchCase
  | switchExprCase (span : Span) (pattern : Phrase .pattern) (guard : Phrase (.option .expr))
      (body : Phrase .expr) : Phrase .switchExprCase
  | catchClause (span : Span) (exceptionType : Option TypeRef) (param : Option Name)
      (body : Phrase .block) : Phrase .catchClause
  | variableDecl (span : Span) (keywords : List Keyword) (type : Option TypeRef)
      (declared : Phrase (.list .declarator)) : Phrase .variableDecl
  | functionDecl (span : Span) (name : Name) (returnType : Option TypeRef)
      (params : Phrase (.list .param)) (body : Phrase .body) : Phrase .functionDecl
  /-- A function without a name. -/
  | closure (span : Span) (params : Phrase (.list .param)) (body : Phrase .body) : Phrase .closure
  | protected nil {c : Category} : Phrase (.list c)
  | protected cons {c : Category} (head : Phrase c) (tail : Phrase (.list c)) : Phrase (.list c)
  | protected none {c : Category} : Phrase (.option c)
  | protected some {c : Category} (value : Phrase c) : Phrase (.option c)
deriving DecidableEq

abbrev Expr := Phrase .expr
abbrev Stmt := Phrase .stmt
abbrev Pattern := Phrase .pattern
abbrev Block := Phrase .block
abbrev Body := Phrase .body
abbrev Argument := Phrase .argument
abbrev Declarator := Phrase .declarator
abbrev VariableDecl := Phrase .variableDecl
abbrev FunctionDecl := Phrase .functionDecl
abbrev Closure := Phrase .closure

/-- What a list or an optional part consists of. -/
def Category.item : Category → Category
  | .list c => c
  | .option c => c
  | c => c

namespace Phrase

/-- The phrases in a list or an optional part, in order. -/
def items : {c : Category} → Phrase c → List (Phrase c.item)
  | _, .cons head tail => head :: tail.items
  | _, .some value => [value]
  | _, _ => []

abbrev toList {c : Category} (p : Phrase (.list c)) : List (Phrase c) := p.items

def toOption {c : Category} : Phrase (.option c) → Option (Phrase c)
  | .none => Option.none
  | .some p => Option.some p

def ofList {c : Category} : List (Phrase c) → Phrase (.list c)
  | [] => .nil
  | p :: ps => .cons p (ofList ps)

/-- A part that may be missing. -/
def ofOption {c : Category} : Option (Phrase c) → Phrase (.option c)
  | Option.none => .none
  | Option.some p => .some p

/-- Where a phrase stands. Lists, optional parts, arguments, entries and the
kinds of a body have no span of their own. -/
def span : {c : Category} → Phrase c → Span
  | _, .identifier span .. => span
  | _, .this span => span
  | _, .literal span .. => span
  | _, .interpolation span .. => span
  | _, .listLiteral span .. => span
  | _, .mapLiteral span .. => span
  | _, .spread span .. => span
  | _, .property span .. => span
  | _, .index span .. => span
  | _, .call span .. => span
  | _, .create span .. => span
  | _, .function c => c.span
  | _, .assign span .. => span
  | _, .update span .. => span
  | _, .conditional span .. => span
  | _, .switchExpr span .. => span
  | _, .binary span .. => span
  | _, .unary span .. => span
  | _, .await span .. => span
  | _, .paren span .. => span
  | _, .cascade span .. => span
  | _, .cascadeReceiver span => span
  | _, .typeTest span .. => span
  | _, .throw span .. => span
  | _, .blockStmt b => b.span
  | _, .expressionStmt span .. => span
  | _, .variableStmt d => d.span
  | _, .patternStmt span .. => span
  | _, .functionStmt d => d.span
  | _, .ifStmt span .. => span
  | _, .forStmt span .. => span
  | _, .forInStmt span .. => span
  | _, .whileStmt span .. => span
  | _, .doWhileStmt span .. => span
  | _, .switchStmt span .. => span
  | _, .tryStmt span .. => span
  | _, .returnStmt span .. => span
  | _, .breakStmt span .. => span
  | _, .continueStmt span .. => span
  | _, .emptyStmt span => span
  | _, .variablePattern span .. => span
  | _, .objectPattern span .. => span
  | _, .recordPattern span .. => span
  | _, .listPattern span .. => span
  | _, .constantPattern span .. => span
  | _, .wildcardPattern span => span
  | _, .block span .. => span
  | _, .body span .. => span
  | _, .param span .. => span
  | _, .declarator span .. => span
  | _, .switchCase span .. => span
  | _, .switchExprCase span .. => span
  | _, .catchClause span .. => span
  | _, .variableDecl span .. => span
  | _, .functionDecl span .. => span
  | _, .closure span .. => span
  | _, .blockBody _ => .zero
  | _, .exprBody _ => .zero
  | _, .noBody => .zero
  | _, .argument .. => .zero
  | _, .mapEntry .. => .zero
  | _, .patternField .. => .zero
  | _, .nil => .zero
  | _, .cons .. => .zero
  | _, .none => .zero
  | _, .some _ => .zero

@[simp]
theorem toList_nil {c : Category} : (Phrase.nil (c := c)).toList = [] := rfl

@[simp]
theorem toList_cons {c : Category} (p : Phrase c) (ps : Phrase (.list c)) :
    (Phrase.cons p ps).toList = p :: ps.toList := rfl

/-- A list of phrases reads back as the list. -/
@[simp]
theorem toList_ofList {c : Category} (ps : List (Phrase c)) : (ofList ps).toList = ps := by
  induction ps with
  | nil => rfl
  | cons p ps ih =>
    simp only [ofList]
    rw [toList_cons, ih]

@[simp]
theorem toOption_ofOption {c : Category} (p : Option (Phrase c)) : (ofOption p).toOption = p := by
  cases p <;> rfl

end Phrase
end SetupLint
