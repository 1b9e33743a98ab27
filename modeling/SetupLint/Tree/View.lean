import SetupLint.Tree.Declaration

/-! What expressions, patterns and bodies are at a glance. Parentheses do not
change what an expression is. -/
namespace SetupLint

/-- An identifier that stands for a value. -/
structure Identifier where
  span : Span
  name : String
  resolved : Option Resolution

/-- The call of a function or a method. -/
structure Call where
  span : Span
  target : Option Expr
  method : Name
  typeArgs : List TypeRef
  args : List Argument
  nullAware : Bool
  resolved : Option Resolution

namespace Phrase

/-- An expression without the parentheses around it. -/
def withoutParens : {c : Category} → Phrase c → Phrase c
  | _, .paren _ expression => expression.withoutParens
  | _, p => p

def asIdentifier? (e : Expr) : Option Identifier :=
  match e.withoutParens with
  | .identifier span name resolved => some ⟨span, name, resolved⟩
  | _ => none

def asFunction? (e : Expr) : Option Closure :=
  match e.withoutParens with
  | .function fn => some fn
  | _ => none

def isThis (e : Expr) : Bool :=
  match e.withoutParens with
  | .this _ => true
  | _ => false

def call? : {c : Category} → Phrase c → Option Call
  | _, .call span target method typeArgs args nullAware resolved =>
    some ⟨span, target.toOption, method, typeArgs, args.toList, nullAware, resolved⟩
  | _, _ => none

def asCall? (e : Expr) : Option Call := e.withoutParens.call?

/-- The value of an argument that has no label. -/
def positional? : Argument → Option Expr
  | .argument none value => some value
  | _ => none

/-- The names that a pattern binds, in order. -/
def boundNames : {c : Category} → Phrase c → List Name
  | _, .variablePattern _ name _ => [name]
  | _, .objectPattern _ _ fields => fields.boundNames
  | _, .recordPattern _ fields => fields.boundNames
  | _, .listPattern _ elements => elements.boundNames
  | _, .patternField _ pattern => pattern.boundNames
  | _, .cons head tail => head.boundNames ++ tail.boundNames
  | _, _ => []

/-- Whether a pattern takes a value apart. -/
def isDestructuring : Pattern → Bool
  | .objectPattern .. => true
  | .recordPattern .. => true
  | .listPattern .. => true
  | _ => false

/-- Whether a body gives its result later. -/
def isAsync : Body → Bool
  | .body _ modifier _ => modifier.isAsync

def block? : Body → Option Block
  | .body _ _ (.blockBody inner) => some inner
  | _ => none

def expression? : Body → Option Expr
  | .body _ _ (.exprBody expression) => some expression
  | _ => none

def statements : Block → List Stmt
  | .block _ inner => inner.toList

def functionBody : Closure → Body
  | .closure _ _ inner => inner

/-- The function literal that a statement returns. -/
def returned? : Stmt → Option Closure
  | .returnStmt _ (.some operand) => operand.asFunction?
  | _ => none

/-- The name of a variable in a declaration. -/
def declaredName : Declarator → Name
  | .declarator _ name _ => name

/-- The initial value of a variable in a declaration. -/
def initial? : Declarator → Option Expr
  | .declarator _ _ init => init.toOption

def declarators : VariableDecl → List Declarator
  | .variableDecl _ _ _ declared => declared.toList

def keywords : VariableDecl → List Keyword
  | .variableDecl _ keywords _ _ => keywords

end Phrase

namespace Call

/-- The only argument of a call, if it has no label. -/
def soleArgument? (call : Call) : Option Expr :=
  match call.args with
  | [arg] => arg.positional?
  | _ => none

/-- The variable on which a method is called. -/
def receiver? (call : Call) : Option Identifier := call.target.bind Phrase.asIdentifier?

/-- Whether a function at the top level is called: a resolved one, also by the
name of its import, or a bare name that is not resolved. -/
def isTopLevel (call : Call) : Bool :=
  match call.resolved with
  | some resolution => resolution.kind = .function
  | none => call.target.isNone

end Call
end SetupLint
