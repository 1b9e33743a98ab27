import SetupLint.Tree.Phrase

/-! Phrases in JSON. A node is written as the members of an object, with its tag
first where a tag tells it from other nodes of its category, and then its parts
in their order. What is optional is left out when it is missing; everything
else is written, values that could be left out included. -/
namespace SetupLint

open Json (Document)

/-- What a phrase of some category is written as. A list is written as the items
of an array, an optional part as the items of an array of at most one, and every
other phrase as the members of an object. -/
abbrev Category.part : Category → Json.Part
  | .list _ => .items
  | .option _ => .items
  | _ => .members

namespace Json

/-- Some members of an object, in this order, before the others. -/
def withMembers (members : List (String × Document)) (rest : Json Empty .members) :
    Json Empty .members :=
  members.foldr (fun (key, value) rest => .member key value rest) rest

/-- A tree as a value. -/
def close : {p : Part} → Json Empty p → Document
  | .value, value => value
  | .items, items => .array items
  | .members, members => .object members

def first? : Json Empty .items → Option Document
  | .item value _ => some value
  | _ => none

end Json

def tagged (tag : String) (members : List (String × Document)) : Json Empty .members :=
  Json.withMembers ((Json.tagKey, .text tag) :: members) .noMembers

def untagged (members : List (String × Document)) : Json Empty .members :=
  Json.withMembers members .noMembers

def spanMember (span : Span) : String × Document := ("span", span.encode)

def flagMember (name : String) (value : Bool) : String × Document := (name, .bool value)

def nameMember (key : String) (name : Option Name) : List (String × Document) :=
  optionally key (name.map Name.encode)

def typeMember (key : String) (type : Option TypeRef) : List (String × Document) :=
  optionally key (type.map TypeRef.encode)

def typesMember (key : String) (types : List TypeRef) : String × Document :=
  (key, Json.list (TypeRef.encodeAll types))

def keywordsMember (keywords : List Keyword) : String × Document :=
  ("keywords", Json.list (keywords.map Keyword.encode))

namespace Phrase

/-- A phrase in JSON. -/
def encode : {c : Category} → Phrase c → Json Empty c.part
  | _, .identifier span name resolved =>
    tagged "Identifier" <| [spanMember span, ("name", .text name)] ++
      optionally "resolved" (resolved.map Resolution.encode)
  | _, .this span => tagged "This" [spanMember span]
  | _, .literal span value => tagged "Literal" [spanMember span, ("value", value.encode)]
  | _, .interpolation span expressions =>
    tagged "Interpolation" [spanMember span, ("expressions", .array expressions.encode)]
  | _, .listLiteral span typeArgs isConst elements =>
    tagged "List" [spanMember span, typesMember "type_args" typeArgs,
      flagMember "is_const" isConst, ("elements", .array elements.encode)]
  | _, .mapLiteral span typeArgs isConst entries =>
    tagged "Map" [spanMember span, typesMember "type_args" typeArgs,
      flagMember "is_const" isConst, ("entries", .array entries.encode)]
  | _, .spread span operand nullAware =>
    tagged "Spread" [spanMember span, ("argument", .object operand.encode),
      flagMember "null_aware" nullAware]
  | _, .property span target name nullAware =>
    tagged "PropertyAccess" [spanMember span, ("target", .object target.encode),
      ("property", name.encode), flagMember "null_aware" nullAware]
  | _, .index span target position =>
    tagged "Index" [spanMember span, ("target", .object target.encode),
      ("index", .object position.encode)]
  | _, .call span target method typeArgs args nullAware resolved =>
    tagged "Call" <| [spanMember span] ++ optionally "target" target.encode.first? ++
      [("method", method.encode), typesMember "type_args" typeArgs,
       ("args", .array args.encode), flagMember "null_aware" nullAware] ++
      optionally "resolved" (resolved.map Resolution.encode)
  | _, .create span type constructor args isConst =>
    tagged "New" <| [spanMember span, ("ty", type.encode)] ++
      nameMember "constructor" constructor ++
      [("args", .array args.encode), flagMember "is_const" isConst]
  | _, .function fn =>
    .member Json.tagKey (.text "Function") fn.encode
  | _, .assign span operator target value =>
    tagged "Assign" [spanMember span, ("operator", Worded.encode operator),
      ("target", .object target.encode), ("value", .object value.encode)]
  | _, .update span operator isBefore operand =>
    tagged "Update" [spanMember span, ("operator", Worded.encode operator),
      flagMember "prefix" isBefore, ("argument", .object operand.encode)]
  | _, .conditional span test consequent alternate =>
    tagged "Conditional" [spanMember span, ("test", .object test.encode),
      ("consequent", .object consequent.encode), ("alternate", .object alternate.encode)]
  | _, .switchExpr span discriminant cases =>
    tagged "Switch" [spanMember span, ("discriminant", .object discriminant.encode),
      ("cases", .array cases.encode)]
  | _, .binary span operator left right =>
    tagged "Binary" [spanMember span, ("operator", .text operator),
      ("left", .object left.encode), ("right", .object right.encode)]
  | _, .unary span operator operand =>
    tagged "Unary" [spanMember span, ("operator", Worded.encode operator),
      ("argument", .object operand.encode)]
  | _, .await span operand =>
    tagged "Await" [spanMember span, ("argument", .object operand.encode)]
  | _, .paren span expression =>
    tagged "Paren" [spanMember span, ("expression", .object expression.encode)]
  | _, .cascade span target sections =>
    tagged "Cascade" [spanMember span, ("target", .object target.encode),
      ("sections", .array sections.encode)]
  | _, .cascadeReceiver span => tagged "CascadeReceiver" [spanMember span]
  | _, .typeTest span kind expression type =>
    tagged "TypeTest" [spanMember span, ("kind", Worded.encode kind),
      ("expression", .object expression.encode), ("ty", type.encode)]
  | _, .throw span operand =>
    tagged "Throw" [spanMember span, ("argument", .object operand.encode)]
  | _, .blockStmt inner => .member Json.tagKey (.text "Block") inner.encode
  | _, .expressionStmt span expression =>
    tagged "Expression" [spanMember span, ("expression", .object expression.encode)]
  | _, .variableStmt decl => .member Json.tagKey (.text "Variable") decl.encode
  | _, .patternStmt span keywords pattern init =>
    tagged "Pattern" [spanMember span, keywordsMember keywords,
      ("pattern", .object pattern.encode), ("init", .object init.encode)]
  | _, .functionStmt decl => .member Json.tagKey (.text "Function") decl.encode
  | _, .ifStmt span test consequent alternate =>
    tagged "If" <| [spanMember span, ("test", .object test.encode),
      ("consequent", .object consequent.encode)] ++
      optionally "alternate" alternate.encode.first?
  | _, .forStmt span init test step inner =>
    tagged "For" <| [spanMember span] ++ optionally "init" init.encode.first? ++
      optionally "test" test.encode.first? ++
      [("update", .array step.encode), ("body", .object inner.encode)]
  | _, .forInStmt span binding iterable isAwait inner =>
    tagged "ForIn" [spanMember span, ("binding", .object binding.encode),
      ("iterable", .object iterable.encode), flagMember "is_await" isAwait,
      ("body", .object inner.encode)]
  | _, .whileStmt span test inner =>
    tagged "While" [spanMember span, ("test", .object test.encode),
      ("body", .object inner.encode)]
  | _, .doWhileStmt span inner test =>
    tagged "DoWhile" [spanMember span, ("body", .object inner.encode),
      ("test", .object test.encode)]
  | _, .switchStmt span discriminant cases =>
    tagged "Switch" [spanMember span, ("discriminant", .object discriminant.encode),
      ("cases", .array cases.encode)]
  | _, .tryStmt span inner handlers finalizer =>
    tagged "Try" <| [spanMember span, ("block", .object inner.encode),
      ("handlers", .array handlers.encode)] ++ optionally "finalizer" finalizer.encode.first?
  | _, .returnStmt span operand =>
    tagged "Return" <| [spanMember span] ++ optionally "argument" operand.encode.first?
  | _, .breakStmt span label => tagged "Break" <| [spanMember span] ++ nameMember "label" label
  | _, .continueStmt span label =>
    tagged "Continue" <| [spanMember span] ++ nameMember "label" label
  | _, .emptyStmt span => tagged "Empty" [spanMember span]
  | _, .variablePattern span name type =>
    tagged "Variable" <| [spanMember span, ("name", name.encode)] ++ typeMember "ty" type
  | _, .objectPattern span type fields =>
    tagged "Object" [spanMember span, ("ty", type.encode), ("fields", .array fields.encode)]
  | _, .recordPattern span fields =>
    tagged "Record" [spanMember span, ("fields", .array fields.encode)]
  | _, .listPattern span elements =>
    tagged "List" [spanMember span, ("elements", .array elements.encode)]
  | _, .constantPattern span expression =>
    tagged "Constant" [spanMember span, ("expression", .object expression.encode)]
  | _, .wildcardPattern span => tagged "Wildcard" [spanMember span]
  | _, .block span statements =>
    untagged [spanMember span, ("statements", .array statements.encode)]
  | _, .body span modifier kind =>
    untagged [spanMember span, ("modifier", Worded.encode modifier),
      ("kind", .object kind.encode)]
  | _, .blockBody inner =>
    untagged [(Json.kindKey, .text "Block"), (Json.contentKey, .object inner.encode)]
  | _, .exprBody expression =>
    untagged [(Json.kindKey, .text "Expression"), (Json.contentKey, .object expression.encode)]
  | _, .noBody => untagged [(Json.kindKey, .text "Empty")]
  | _, .param span name type named default =>
    untagged <| [spanMember span, ("name", name.encode)] ++ typeMember "ty" type ++
      [flagMember "named" named] ++ optionally "default_value" default.encode.first?
  | _, .declarator span name init =>
    untagged <| [spanMember span, ("name", name.encode)] ++
      optionally "init" init.encode.first?
  | _, .argument label value =>
    untagged <| nameMember "name" label ++ [("value", .object value.encode)]
  | _, .mapEntry key value =>
    untagged <| [("key", .object key.encode)] ++ optionally "value" value.encode.first?
  | _, .patternField label pattern =>
    untagged <| nameMember "name" label ++ [("pattern", .object pattern.encode)]
  | _, .switchCase span pattern guard inner =>
    untagged <| [spanMember span] ++ optionally "pattern" pattern.encode.first? ++
      optionally "guard" guard.encode.first? ++ [("body", .array inner.encode)]
  | _, .switchExprCase span pattern guard inner =>
    untagged <| [spanMember span, ("pattern", .object pattern.encode)] ++
      optionally "guard" guard.encode.first? ++ [("body", .object inner.encode)]
  | _, .catchClause span exceptionType bound inner =>
    untagged <| [spanMember span] ++ typeMember "exception_type" exceptionType ++
      nameMember "param" bound ++ [("body", .object inner.encode)]
  | _, .variableDecl span keywords type declared =>
    untagged <| [spanMember span, keywordsMember keywords] ++ typeMember "ty" type ++
      [("variables", .array declared.encode)]
  | _, .functionDecl span name returnType params inner =>
    untagged <| [spanMember span, ("name", name.encode)] ++
      typeMember "return_type" returnType ++
      [("params", .array params.encode), ("body", .object inner.encode)]
  | _, .closure span params inner =>
    untagged [spanMember span, ("params", .array params.encode),
      ("body", .object inner.encode)]
  | _, .nil => .noItems
  | _, .cons head tail => .item head.encode.close tail.encode
  | _, .none => .noItems
  | _, .some value => .item value.encode.close .noItems

/-- A phrase as a JSON value. -/
def document {c : Category} (p : Phrase c) : Document := p.encode.close

end Phrase
end SetupLint
