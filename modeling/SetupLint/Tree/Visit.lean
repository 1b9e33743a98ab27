import SetupLint.Tree.Walk

/-! The course of a walk: what it announces, in order. A phrase may be announced
twice, first for its category and then for what it is in particular. -/
namespace SetupLint

/-- What a walk announces a node as. -/
inductive Hook where
  | declaration
  | classDecl
  | field
  | method
  | constructorDecl
  | functionDecl
  | variableDecl
  | variableDeclarator
  | param
  | functionBody
  | block
  | stmt
  | patternDecl
  | ifStmt
  | forStmt
  | forInStmt
  | whileStmt
  | doWhileStmt
  | switchStmt
  | tryStmt
  | returnStmt
  | pattern
  | expr
  | this
  | propertyAccess
  | index
  | call
  | instanceCreation
  | functionLiteral
  | assign
  | update
  | conditional
  | switchExpr
  | cascade
deriving DecidableEq

def Hook.word : Hook → String
  | .declaration => "declaration"
  | .classDecl => "class"
  | .field => "field"
  | .method => "method"
  | .constructorDecl => "constructor"
  | .functionDecl => "function_decl"
  | .variableDecl => "variable_decl"
  | .variableDeclarator => "variable_declarator"
  | .param => "param"
  | .functionBody => "function_body"
  | .block => "block"
  | .stmt => "stmt"
  | .patternDecl => "pattern_decl"
  | .ifStmt => "if_stmt"
  | .forStmt => "for_stmt"
  | .forInStmt => "for_in_stmt"
  | .whileStmt => "while_stmt"
  | .doWhileStmt => "do_while_stmt"
  | .switchStmt => "switch_stmt"
  | .tryStmt => "try_stmt"
  | .returnStmt => "return_stmt"
  | .pattern => "pattern"
  | .expr => "expr"
  | .this => "this"
  | .propertyAccess => "property_access"
  | .index => "index"
  | .call => "call"
  | .instanceCreation => "instance_creation"
  | .functionLiteral => "function_literal"
  | .assign => "assign"
  | .update => "update"
  | .conditional => "conditional"
  | .switchExpr => "switch_expr"
  | .cascade => "cascade"

/-- A step in the course of a walk. -/
inductive Announcement where
  | unit (path : String)
  | identifier (span : Span) (name : String)
  | node (hook : Hook) (span : Span)
deriving DecidableEq

def Announcement.text : Announcement → String
  | .unit path => "unit " ++ path
  | .identifier span name => "identifier " ++ span.display ++ " " ++ name
  | .node hook span => hook.word ++ " " ++ span.display

def Category.hook? : Category → Option Hook
  | .expr => some .expr
  | .stmt => some .stmt
  | .pattern => some .pattern
  | .block => some .block
  | .body => some .functionBody
  | .param => some .param
  | .declarator => some .variableDeclarator
  | .variableDecl => some .variableDecl
  | .functionDecl => some .functionDecl
  | .closure => some .functionLiteral
  | _ => none

/-- What a phrase is announced as in particular. -/
def Phrase.detail? : {c : Category} → Phrase c → Option Announcement
  | _, .identifier span name _ => some (.identifier span name)
  | _, .this span => some (.node .this span)
  | _, .property span .. => some (.node .propertyAccess span)
  | _, .index span .. => some (.node .index span)
  | _, .call span .. => some (.node .call span)
  | _, .create span .. => some (.node .instanceCreation span)
  | _, .assign span .. => some (.node .assign span)
  | _, .update span .. => some (.node .update span)
  | _, .conditional span .. => some (.node .conditional span)
  | _, .switchExpr span .. => some (.node .switchExpr span)
  | _, .cascade span .. => some (.node .cascade span)
  | _, .patternStmt span .. => some (.node .patternDecl span)
  | _, .ifStmt span .. => some (.node .ifStmt span)
  | _, .forStmt span .. => some (.node .forStmt span)
  | _, .forInStmt span .. => some (.node .forInStmt span)
  | _, .whileStmt span .. => some (.node .whileStmt span)
  | _, .doWhileStmt span .. => some (.node .doWhileStmt span)
  | _, .switchStmt span .. => some (.node .switchStmt span)
  | _, .tryStmt span .. => some (.node .tryStmt span)
  | _, .returnStmt span .. => some (.node .returnStmt span)
  | _, _ => none

def Phrase.announcements {c : Category} (p : Phrase c) : List Announcement :=
  (c.hook?.map fun hook => .node hook p.span).toList ++ p.detail?.toList

/-- The walk that collects the announcements. -/
def Walk.course : Walk PUnit Announcement where
  visit p _ := p.announcements

def Member.course (m : Member) : List Announcement :=
  let hook := match m with
    | .field _ => Hook.field
    | .method _ => Hook.method
    | .constructor _ => Hook.constructorDecl
  .node hook m.span :: m.walk .course ()

def Declaration.course (d : Declaration) : List Announcement :=
  .node .declaration d.span ::
    match d with
    | .class c => .node .classDecl c.span :: c.members.flatMap Member.course
    | _ => d.walk .course ()

def CompilationUnit.course (u : CompilationUnit) : List Announcement :=
  .unit u.path :: u.declarations.flatMap Declaration.course

/-- The walk that collects the names of identifiers, and `this`. -/
def Walk.leaves : Walk PUnit String where
  visit p _ := match p with
    | .identifier _ name _ => [name]
    | .this _ => ["this"]
    | _ => []

def CompilationUnit.leaves (u : CompilationUnit) : List String := u.walk .leaves ()

end SetupLint
