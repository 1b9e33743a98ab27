import SetupLint.Tree.Declaration

/-! Drafts: trees without spans. Building a draft gives each node a span of its
own, so nodes that never stood in a source can still be told apart by where they
are. The parts of a node are built before the node itself, in their order. In a
sketch some of the parts may be there already. -/
namespace SetupLint

/-- What a draft is of. -/
inductive DraftKind where
  | expr
  | stmt
  | pattern
  | body
  | bodyKind
  | argument
  | type
  /-- A constant and the statements behind it, in a switch. -/
  | arm
  | member
  | declaration
  | list (k : DraftKind)
  | option (k : DraftKind)

def DraftKind.Built : DraftKind → Type
  | .expr => Expr
  | .stmt => Stmt
  | .pattern => Pattern
  | .body => Body
  | .bodyKind => Phrase .bodyKind
  | .argument => Argument
  | .type => TypeRef
  | .arm => Expr × List Stmt
  | .member => Member
  | .declaration => Declaration
  | .list k => List k.Built
  | .option k => Option k.Built

/-- A draft with places for parts that are there already. -/
inductive Sketch (Ready : DraftKind → Type) : DraftKind → Type where
  /-- A part that is there already. -/
  | ready {k : DraftKind} (part : Ready k) : Sketch Ready k
  | identifier (name : String) (resolved : Option Resolution) : Sketch Ready .expr
  | this : Sketch Ready .expr
  | literal (value : LiteralValue) : Sketch Ready .expr
  | listLiteral (elements : Sketch Ready (.list .expr)) : Sketch Ready .expr
  | spread (operand : Sketch Ready .expr) : Sketch Ready .expr
  | property (target : Sketch Ready .expr) (name : String) : Sketch Ready .expr
  | index (target position : Sketch Ready .expr) : Sketch Ready .expr
  | call (target : Sketch Ready (.option .expr)) (method : String)
      (typeArgs : Sketch Ready (.list .type)) (args : Sketch Ready (.list .argument))
      (resolved : Option Resolution) : Sketch Ready .expr
  | create (type : String) (args : Sketch Ready (.list .argument)) : Sketch Ready .expr
  /-- A function literal with an expression. -/
  | arrow (params : List String) (result : Sketch Ready .expr) : Sketch Ready .expr
  /-- A function literal with a block. -/
  | closure (params : List String) (statements : Sketch Ready (.list .stmt)) : Sketch Ready .expr
  | assign (operator : AssignOp) (target value : Sketch Ready .expr) : Sketch Ready .expr
  | update (operator : UpdateOp) (operand : Sketch Ready .expr) : Sketch Ready .expr
  | conditional (test consequent alternate : Sketch Ready .expr) : Sketch Ready .expr
  | binary (operator : String) (left right : Sketch Ready .expr) : Sketch Ready .expr
  | unary (operator : UnaryOp) (operand : Sketch Ready .expr) : Sketch Ready .expr
  | await (operand : Sketch Ready .expr) : Sketch Ready .expr
  | paren (expression : Sketch Ready .expr) : Sketch Ready .expr
  | cascade (target : Sketch Ready .expr) (sections : Sketch Ready (.list .expr)) :
      Sketch Ready .expr
  | cascadeReceiver : Sketch Ready .expr
  | expressionStmt (expression : Sketch Ready .expr) : Sketch Ready .stmt
  | localStmt (keyword : Option KeywordKind) (name : String)
      (init : Sketch Ready (.option .expr)) : Sketch Ready .stmt
  | patternStmt (pattern : Sketch Ready .pattern) (init : Sketch Ready .expr) : Sketch Ready .stmt
  | blockStmt (statements : Sketch Ready (.list .stmt)) : Sketch Ready .stmt
  | ifStmt (test : Sketch Ready .expr) (consequent : Sketch Ready (.list .stmt))
      (alternate : Sketch Ready (.option (.list .stmt))) : Sketch Ready .stmt
  | forInStmt (name : String) (iterable : Sketch Ready .expr)
      (statements : Sketch Ready (.list .stmt)) : Sketch Ready .stmt
  | whileStmt (test : Sketch Ready .expr) (statements : Sketch Ready (.list .stmt)) :
      Sketch Ready .stmt
  | switchStmt (discriminant : Sketch Ready .expr) (arms : Sketch Ready (.list .arm))
      (default : Sketch Ready (.option (.list .stmt))) : Sketch Ready .stmt
  | returnStmt (operand : Sketch Ready .expr) : Sketch Ready .stmt
  | arm (constant : Sketch Ready .expr) (statements : Sketch Ready (.list .stmt)) :
      Sketch Ready .arm
  | variablePattern (name : String) : Sketch Ready .pattern
  | recordPattern (names : List String) : Sketch Ready .pattern
  | body (modifier : BodyModifier) (kind : Sketch Ready .bodyKind) : Sketch Ready .body
  | blockBody (statements : Sketch Ready (.list .stmt)) : Sketch Ready .bodyKind
  | exprBody (expression : Sketch Ready .expr) : Sketch Ready .bodyKind
  | noBody : Sketch Ready .bodyKind
  | positional (value : Sketch Ready .expr) : Sketch Ready .argument
  | named (label : String) (value : Sketch Ready .expr) : Sketch Ready .argument
  | type (name : String) (args : Sketch Ready (.list .type)) : Sketch Ready .type
  | field (keywords : List KeywordKind) (type : Option String) (name : String)
      (init : Sketch Ready (.option .expr)) : Sketch Ready .member
  | method (kind : MethodKind) (name : String) (inner : Sketch Ready .body) : Sketch Ready .member
  | function (name : String) (inner : Sketch Ready .body) : Sketch Ready .declaration
  | classDecl (name : String) (superclass : Option String)
      (members : Sketch Ready (.list .member)) : Sketch Ready .declaration
  | protected nil {k : DraftKind} : Sketch Ready (.list k)
  | protected cons {k : DraftKind} (head : Sketch Ready k) (tail : Sketch Ready (.list k)) :
      Sketch Ready (.list k)
  | protected none {k : DraftKind} : Sketch Ready (.option k)
  | protected some {k : DraftKind} (value : Sketch Ready k) : Sketch Ready (.option k)

/-- A draft: a sketch in which nothing is there already. -/
abbrev Draft : DraftKind → Type := Sketch fun _ => Empty

/-- A computation that takes new spans. -/
abbrev Fresh := StateM Nat

namespace Fresh

/-- The number of offsets from one new span to the next. -/
def width : Nat := 4

/-- A new span. It ends one offset before the next one starts. -/
def span : Fresh Span := do
  let start ← get
  set (start + width)
  return ⟨UInt32.ofNat start, UInt32.ofNat (start + width - 1)⟩

/-- A node of which only the span is new. -/
def node {α : Type} (make : Span → α) : Fresh α := return make (← span)

def name (text : String) : Fresh Name := return ⟨text, ← span⟩

def keyword (kind : KeywordKind) : Fresh Keyword := return ⟨kind, ← span⟩

/-- A type without arguments. -/
def type (text : String) : Fresh TypeRef := return ⟨← span, text, [], false⟩

/-- What an optional part is made into. -/
def optional {α β : Type} (make : α → Fresh β) : Option α → Fresh (Option β)
  | none => return none
  | some a => return some (← make a)

/-! ### Expressions -/

def property (target : Expr) (text : String) : Fresh Expr :=
  return .property (← span) target (← name text) false

def call (target : Option Expr) (method : String) (typeArgs : List TypeRef)
    (args : List Argument) (resolved : Option Resolution) : Fresh Expr :=
  return .call (← span) (.ofOption target) (← name method) typeArgs (.ofList args) false resolved

def create (made : String) (args : List Argument) : Fresh Expr :=
  return .create (← span) (← type made) none (.ofList args) false

def namedArgument (label : String) (value : Expr) : Fresh Argument :=
  return .argument (some (← name label)) value

def param (text : String) : Fresh (Phrase .param) :=
  return .param (← span) (← name text) none false .none

def block (statements : List Stmt) : Fresh Block := return .block (← span) (.ofList statements)

def body (modifier : BodyModifier) (kind : Phrase .bodyKind) : Fresh Body :=
  return .body (← span) modifier kind

def blockBody (statements : List Stmt) : Fresh (Phrase .bodyKind) :=
  return .blockBody (← block statements)

/-- A function literal with an expression. Its parameters come before it. -/
def arrow (params : List String) (result : Expr) : Fresh Expr := do
  let params ← params.mapM param
  return .function (.closure (← span) (.ofList params) (← body .sync (.exprBody result)))

/-- A function literal with a block. Its parameters come before it. -/
def closure (params : List String) (statements : List Stmt) : Fresh Expr := do
  let params ← params.mapM param
  let span ← span
  let kind ← blockBody statements
  return .function (.closure span (.ofList params) (← body .sync kind))

/-! ### Statements -/

def blockStmt (statements : List Stmt) : Fresh Stmt := return .blockStmt (← block statements)

def declarator (text : String) (init : Option Expr) : Fresh Declarator :=
  return .declarator (← span) (← name text) (.ofOption init)

def localStmt (word : Option KeywordKind) (text : String) (init : Option Expr) : Fresh Stmt := do
  let keywords ← optional keyword word
  let entry ← declarator text init
  return .variableStmt (.variableDecl (← span) keywords.toList none (.ofList [entry]))

def variablePattern (text : String) : Fresh Pattern :=
  return .variablePattern (← span) (← name text) none

/-- A pattern that binds the fields of a record under their names. -/
def recordPattern (names : List String) : Fresh Pattern := do
  let patterns ← names.mapM variablePattern
  return .recordPattern (← span) (.ofList (patterns.map (.patternField none)))

def patternStmt (pattern : Pattern) (init : Expr) : Fresh Stmt :=
  return .patternStmt (← span) [← keyword .finalWord] pattern init

def ifStmt (test : Expr) (consequent : List Stmt) (alternate : Option (List Stmt)) : Fresh Stmt :=
  return .ifStmt (← span) test (← blockStmt consequent)
    (.ofOption (← optional blockStmt alternate))

def forInStmt (text : String) (iterable : Expr) (statements : List Stmt) : Fresh Stmt :=
  return .forInStmt (← span) (← variablePattern text) iterable false (← blockStmt statements)

def whileStmt (test : Expr) (statements : List Stmt) : Fresh Stmt :=
  return .whileStmt (← span) test (← blockStmt statements)

def switchCase (constant : Expr) (statements : List Stmt) : Fresh (Phrase .switchCase) :=
  return .switchCase (← span) (.some (.constantPattern (← span) constant)) .none
    (.ofList statements)

def defaultCase (statements : List Stmt) : Fresh (Phrase .switchCase) :=
  return .switchCase (← span) .none .none (.ofList statements)

/-- A switch. Its cases come before it, the default case behind the others. -/
def switchStmt (discriminant : Expr) (arms : List (Expr × List Stmt))
    (default : Option (List Stmt)) : Fresh Stmt := do
  let cases ← arms.mapM fun (constant, statements) => switchCase constant statements
  let last ← optional defaultCase default
  return .switchStmt (← span) discriminant (.ofList (cases ++ last.toList))

/-! ### Declarations -/

def field (words : List KeywordKind) (declared : Option String) (text : String)
    (init : Option Expr) : Fresh Member := do
  let keywords ← words.mapM keyword
  let declared ← optional type declared
  let entry ← declarator text init
  return .field ⟨← span, keywords, declared, .ofList [entry]⟩

def method (kind : MethodKind) (text : String) (inner : Body) : Fresh Member :=
  return .method ⟨← span, ← name text, kind, [], none, .nil, inner⟩

def function (text : String) (inner : Body) : Fresh Declaration :=
  return .function (.functionDecl (← span) (← name text) none .nil inner)

def classDecl (text : String) (superclass : Option String) (members : List Member) :
    Fresh Declaration :=
  return .class ⟨← span, ← name text, ← optional type superclass, false, members⟩

end Fresh

namespace Sketch

variable {Ready : DraftKind → Type}

/-- Build a sketch around the parts that are there. -/
def build (built : {k : DraftKind} → Ready k → k.Built) :
    {k : DraftKind} → Sketch Ready k → Fresh k.Built
  | _, .ready part => return built part
  | _, .identifier name resolved => Fresh.node fun span => .identifier span name resolved
  | _, .this => Fresh.node .this
  | _, .literal value => Fresh.node fun span => .literal span value
  | _, .listLiteral elements => do
    let elements ← elements.build built
    Fresh.node fun span => .listLiteral span [] false (.ofList elements)
  | _, .spread operand => do
    let operand ← operand.build built
    Fresh.node fun span => .spread span operand false
  | _, .property target name => do
    let target ← target.build built
    Fresh.property target name
  | _, .index target position => do
    let target ← target.build built
    let position ← position.build built
    Fresh.node fun span => .index span target position
  | _, .call target callee typeArgs args resolved => do
    let target ← target.build built
    let typeArgs ← typeArgs.build built
    let args ← args.build built
    Fresh.call target callee typeArgs args resolved
  | _, .create made args => do
    let args ← args.build built
    Fresh.create made args
  | _, .arrow params result => do
    let result ← result.build built
    Fresh.arrow params result
  | _, .closure params statements => do
    let statements ← statements.build built
    Fresh.closure params statements
  | _, .assign operator target value => do
    let target ← target.build built
    let value ← value.build built
    Fresh.node fun span => .assign span operator target value
  | _, .update operator operand => do
    let operand ← operand.build built
    Fresh.node fun span => .update span operator false operand
  | _, .conditional test consequent alternate => do
    let test ← test.build built
    let consequent ← consequent.build built
    let alternate ← alternate.build built
    Fresh.node fun span => .conditional span test consequent alternate
  | _, .binary operator left right => do
    let left ← left.build built
    let right ← right.build built
    Fresh.node fun span => .binary span operator left right
  | _, .unary operator operand => do
    let operand ← operand.build built
    Fresh.node fun span => .unary span operator operand
  | _, .await operand => do
    let operand ← operand.build built
    Fresh.node fun span => .await span operand
  | _, .paren expression => do
    let expression ← expression.build built
    Fresh.node fun span => .paren span expression
  | _, .cascade target sections => do
    let target ← target.build built
    let sections ← sections.build built
    Fresh.node fun span => .cascade span target (.ofList sections)
  | _, .cascadeReceiver => Fresh.node .cascadeReceiver
  | _, .expressionStmt expression => do
    let expression ← expression.build built
    Fresh.node fun span => .expressionStmt span expression
  | _, .localStmt keyword name init => do
    let init ← init.build built
    Fresh.localStmt keyword name init
  | _, .patternStmt pattern init => do
    let pattern ← pattern.build built
    let init ← init.build built
    Fresh.patternStmt pattern init
  | _, .blockStmt statements => do
    let statements ← statements.build built
    Fresh.blockStmt statements
  | _, .ifStmt test consequent alternate => do
    let test ← test.build built
    let consequent ← consequent.build built
    let alternate ← alternate.build built
    Fresh.ifStmt test consequent alternate
  | _, .forInStmt name iterable statements => do
    let iterable ← iterable.build built
    let statements ← statements.build built
    Fresh.forInStmt name iterable statements
  | _, .whileStmt test statements => do
    let test ← test.build built
    let statements ← statements.build built
    Fresh.whileStmt test statements
  | _, .switchStmt discriminant arms default => do
    let discriminant ← discriminant.build built
    let arms ← arms.build built
    let default ← default.build built
    Fresh.switchStmt discriminant arms default
  | _, .returnStmt operand => do
    let operand ← operand.build built
    Fresh.node fun span => .returnStmt span (.some operand)
  | _, .arm constant statements => do
    let constant ← constant.build built
    let statements ← statements.build built
    return (constant, statements)
  | _, .variablePattern name => Fresh.variablePattern name
  | _, .recordPattern names => Fresh.recordPattern names
  | _, .body modifier kind => do
    let kind ← kind.build built
    Fresh.body modifier kind
  | _, .blockBody statements => do
    let statements ← statements.build built
    Fresh.blockBody statements
  | _, .exprBody expression => do
    let expression ← expression.build built
    return .exprBody expression
  | _, .noBody => return .noBody
  | _, .positional value => do
    let value ← value.build built
    return .argument none value
  | _, .named label value => do
    let value ← value.build built
    Fresh.namedArgument label value
  | _, .type name args => do
    let args ← args.build built
    Fresh.node fun span => ⟨span, name, args, false⟩
  | _, .field keywords declared name init => do
    let init ← init.build built
    Fresh.field keywords declared name init
  | _, .method kind name inner => do
    let inner ← inner.build built
    Fresh.method kind name inner
  | _, .function name inner => do
    let inner ← inner.build built
    Fresh.function name inner
  | _, .classDecl name superclass members => do
    let members ← members.build built
    Fresh.classDecl name superclass members
  | _, .nil => return []
  | _, .cons head tail => do
    let head ← head.build built
    let tail ← tail.build built
    return head :: tail
  | _, .none => return none
  | _, .some value => do
    let value ← value.build built
    return some value

def ofList {k : DraftKind} : List (Sketch Ready k) → Sketch Ready (.list k)
  | [] => .nil
  | head :: tail => .cons head (ofList tail)

/-- A part that may be missing. -/
def ofOption {k : DraftKind} : Option (Sketch Ready k) → Sketch Ready (.option k)
  | none => .none
  | some value => .some value

/-- Arguments without labels. -/
def positionals (values : List (Sketch Ready .expr)) : Sketch Ready (.list .argument) :=
  ofList (values.map .positional)

/-- The call of a function at the top level. -/
def callFunction (name : String) (typeArgs : List (Sketch Ready .type))
    (args : List (Sketch Ready .expr)) : Sketch Ready .expr :=
  .call .none name (ofList typeArgs) (positionals args) (some { kind := .function })

/-- The call of a method that is not resolved. -/
def callMethod (target : Sketch Ready .expr) (name : String) (args : List (Sketch Ready .expr)) :
    Sketch Ready .expr :=
  .call (.some target) name .nil (positionals args) none

def blockOf (statements : List (Sketch Ready .stmt)) : Sketch Ready .body :=
  .body .sync (.blockBody (ofList statements))

def resultOf (expression : Sketch Ready .expr) : Sketch Ready .body :=
  .body .sync (.exprBody expression)

end Sketch

/-- The declarations of some drafts, and where the next new span would start. -/
def Draft.buildAll (drafts : List (Draft .declaration)) : List Declaration × Nat :=
  ((Sketch.ofList drafts).build Empty.elim).run 0

end SetupLint
