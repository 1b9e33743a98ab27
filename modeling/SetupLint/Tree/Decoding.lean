import SetupLint.Tree.Encoding

/-! Phrases from JSON. The schema of a node names its parts in their order and
what stands for a part that is absent; it is given the decoders of the parts. The
decoder of a category puts the schemas of its nodes together, and the decoder of
a whole tree ties the knot. -/
namespace SetupLint

open Json (Decoder RecordField Schema)

/-- Decoders of all categories. -/
abbrev PhraseDecoder := (c : Category) → Decoder (Phrase c)

namespace PhraseDecoder

/-- A part that must be present. -/
def part (decode : PhraseDecoder) (name : String) (c : Category) : RecordField (Phrase c) :=
  required name (decode c)

/-- A part that may be absent or `null`. -/
def optionalPart (decode : PhraseDecoder) (name : String) (c : Category) :
    RecordField (Phrase (.option c)) :=
  defaulted name (decode (.option c)) .none

/-- A list that is empty when it is absent. -/
def parts (decode : PhraseDecoder) (name : String) (c : Category) :
    RecordField (Phrase (.list c)) :=
  defaulted name (decode (.list c)) .nil

end PhraseDecoder

def typesField (name : String) : RecordField (List TypeRef) :=
  defaulted name (Json.Decode.list TypeRef.decode) []

def keywordsField : RecordField (List Keyword) :=
  defaulted "keywords" (Json.Decode.list Keyword.schema.decode) []

def nameField (key : String) : RecordField Name := required key Name.schema.decode

def optionalName (key : String) : RecordField (Option Name) := optional key Name.schema.decode

def optionalType (key : String) : RecordField (Option TypeRef) := optional key TypeRef.decode

def resolvedField : RecordField (Option Resolution) := optional "resolved" Resolution.schema.decode

/-- The schema of a node with a span and nothing else. -/
def spanSchema {α : Type} (make : Span → α) : Schema α where
  fields := .cons spanField .nil
  make := fun ⟨span, _⟩ => make span

def partSchema {α β : Type} (field : RecordField α) (make : Span → α → β) : Schema β where
  fields := .cons spanField <| .cons field .nil
  make := fun ⟨span, part, _⟩ => make span part

def pairSchema {α β γ : Type} (first : RecordField α) (second : RecordField β)
    (make : Span → α → β → γ) : Schema γ where
  fields := .cons spanField <| .cons first <| .cons second .nil
  make := fun ⟨span, a, b, _⟩ => make span a b

def tripleSchema {α β γ δ : Type} (first : RecordField α) (second : RecordField β)
    (third : RecordField γ) (make : Span → α → β → γ → δ) : Schema δ where
  fields := .cons spanField <| .cons first <| .cons second <| .cons third .nil
  make := fun ⟨span, a, b, c, _⟩ => make span a b c

def fourfoldSchema {α β γ δ ε : Type} (first : RecordField α) (second : RecordField β)
    (third : RecordField γ) (fourth : RecordField δ) (make : Span → α → β → γ → δ → ε) :
    Schema ε where
  fields :=
    .cons spanField <| .cons first <| .cons second <| .cons third <| .cons fourth .nil
  make := fun ⟨span, a, b, c, d, _⟩ => make span a b c d

namespace Json.Schema

def map {α β : Type} (f : α → β) (schema : Schema α) : Schema β where
  fields := schema.fields
  make := fun values => f (schema.make values)

end Json.Schema

namespace PhraseDecoder

variable (decode : PhraseDecoder)

def block : Schema Block := partSchema (decode.parts "statements" .stmt) .block

def variableDecl : Schema VariableDecl :=
  tripleSchema keywordsField (optionalType "ty") (decode.part "variables" (.list .declarator))
    .variableDecl

def functionDecl : Schema FunctionDecl :=
  fourfoldSchema (nameField "name") (optionalType "return_type") (decode.parts "params" .param)
    (decode.part "body" .body) .functionDecl

def closure : Schema Closure :=
  pairSchema (decode.parts "params" .param) (decode.part "body" .body) .closure

def call : Schema Expr where
  fields :=
    .cons spanField <|
    .cons (decode.optionalPart "target" .expr) <|
    .cons (nameField "method") <|
    .cons (typesField "type_args") <|
    .cons (decode.parts "args" .argument) <|
    .cons (flag "null_aware") <|
    .cons resolvedField .nil
  make := fun ⟨span, target, method, typeArgs, args, nullAware, resolved, _⟩ =>
    .call span target method typeArgs args nullAware resolved

def exprs : List (String × Schema Expr) :=
  [("Identifier",
     pairSchema (required "name" Json.Decode.text) resolvedField .identifier),
   ("This", spanSchema .this),
   ("Literal", partSchema (required "value" LiteralValue.decode) .literal),
   ("Interpolation", partSchema (decode.parts "expressions" .expr) .interpolation),
   ("List",
     tripleSchema (typesField "type_args") (flag "is_const") (decode.parts "elements" .expr)
       .listLiteral),
   ("Map",
     tripleSchema (typesField "type_args") (flag "is_const") (decode.parts "entries" .mapEntry)
       .mapLiteral),
   ("Spread", pairSchema (decode.part "argument" .expr) (flag "null_aware") .spread),
   ("PropertyAccess",
     tripleSchema (decode.part "target" .expr) (nameField "property") (flag "null_aware")
       .property),
   ("Index", pairSchema (decode.part "target" .expr) (decode.part "index" .expr) .index),
   ("Call", decode.call),
   ("New",
     fourfoldSchema (required "ty" TypeRef.decode) (optionalName "constructor")
       (decode.parts "args" .argument) (flag "is_const") .create),
   ("Function", decode.closure.map .function),
   ("Assign",
     tripleSchema (defaulted "operator" Worded.decode .assign) (decode.part "target" .expr)
       (decode.part "value" .expr) .assign),
   ("Update",
     tripleSchema (required "operator" Worded.decode) (flag "prefix")
       (decode.part "argument" .expr) .update),
   ("Conditional",
     tripleSchema (decode.part "test" .expr) (decode.part "consequent" .expr)
       (decode.part "alternate" .expr) .conditional),
   ("Switch",
     pairSchema (decode.part "discriminant" .expr) (decode.parts "cases" .switchExprCase)
       .switchExpr),
   ("Binary",
     tripleSchema (required "operator" Json.Decode.text) (decode.part "left" .expr)
       (decode.part "right" .expr) .binary),
   ("Unary",
     pairSchema (required "operator" Worded.decode) (decode.part "argument" .expr) .unary),
   ("Await", partSchema (decode.part "argument" .expr) .await),
   ("Paren", partSchema (decode.part "expression" .expr) .paren),
   ("Cascade",
     pairSchema (decode.part "target" .expr) (decode.parts "sections" .expr) .cascade),
   ("CascadeReceiver", spanSchema .cascadeReceiver),
   ("TypeTest",
     tripleSchema (required "kind" Worded.decode) (decode.part "expression" .expr)
       (required "ty" TypeRef.decode) .typeTest),
   ("Throw", partSchema (decode.part "argument" .expr) .throw)]

def stmts : List (String × Schema Stmt) :=
  [("Block", decode.block.map .blockStmt),
   ("Expression", partSchema (decode.part "expression" .expr) .expressionStmt),
   ("Variable", decode.variableDecl.map .variableStmt),
   ("Pattern",
     tripleSchema keywordsField (decode.part "pattern" .pattern) (decode.part "init" .expr)
       .patternStmt),
   ("Function", decode.functionDecl.map .functionStmt),
   ("If",
     tripleSchema (decode.part "test" .expr) (decode.part "consequent" .stmt)
       (decode.optionalPart "alternate" .stmt) .ifStmt),
   ("For",
     fourfoldSchema (decode.optionalPart "init" .stmt) (decode.optionalPart "test" .expr)
       (decode.parts "update" .expr) (decode.part "body" .stmt) .forStmt),
   ("ForIn",
     fourfoldSchema (decode.part "binding" .pattern) (decode.part "iterable" .expr)
       (flag "is_await") (decode.part "body" .stmt) .forInStmt),
   ("While", pairSchema (decode.part "test" .expr) (decode.part "body" .stmt) .whileStmt),
   ("DoWhile", pairSchema (decode.part "body" .stmt) (decode.part "test" .expr) .doWhileStmt),
   ("Switch",
     pairSchema (decode.part "discriminant" .expr) (decode.parts "cases" .switchCase)
       .switchStmt),
   ("Try",
     tripleSchema (decode.part "block" .block) (decode.parts "handlers" .catchClause)
       (decode.optionalPart "finalizer" .block) .tryStmt),
   ("Return", partSchema (decode.optionalPart "argument" .expr) .returnStmt),
   ("Break", partSchema (optionalName "label") .breakStmt),
   ("Continue", partSchema (optionalName "label") .continueStmt),
   ("Empty", spanSchema .emptyStmt)]

def patterns : List (String × Schema Pattern) :=
  [("Variable", pairSchema (nameField "name") (optionalType "ty") .variablePattern),
   ("Object",
     pairSchema (required "ty" TypeRef.decode) (decode.parts "fields" .patternField)
       .objectPattern),
   ("Record", partSchema (decode.parts "fields" .patternField) .recordPattern),
   ("List", partSchema (decode.parts "elements" .pattern) .listPattern),
   ("Constant", partSchema (decode.part "expression" .expr) .constantPattern),
   ("Wildcard", spanSchema .wildcardPattern)]

def bodyKinds : List (String × Json.Case (Phrase .bodyKind)) :=
  [("Block", .holding fun place reading => (decode .block place reading).map .blockBody),
   ("Expression", .holding fun place reading => (decode .expr place reading).map .exprBody),
   ("Empty", .bare .noBody)]

def body : Schema Body :=
  pairSchema (defaulted "modifier" Worded.decode .sync) (decode.part "kind" .bodyKind) .body

def param : Schema (Phrase .param) :=
  fourfoldSchema (nameField "name") (optionalType "ty") (flag "named")
    (decode.optionalPart "default_value" .expr) .param

def declarator : Schema Declarator :=
  pairSchema (nameField "name") (decode.optionalPart "init" .expr) .declarator

def argument : Schema Argument where
  fields := .cons (optionalName "name") <| .cons (decode.part "value" .expr) .nil
  make := fun ⟨label, value, _⟩ => .argument label value

def mapEntry : Schema (Phrase .mapEntry) where
  fields := .cons (decode.part "key" .expr) <| .cons (decode.optionalPart "value" .expr) .nil
  make := fun ⟨key, value, _⟩ => .mapEntry key value

def patternField : Schema (Phrase .patternField) where
  fields := .cons (optionalName "name") <| .cons (decode.part "pattern" .pattern) .nil
  make := fun ⟨label, pattern, _⟩ => .patternField label pattern

def switchCase : Schema (Phrase .switchCase) :=
  tripleSchema (decode.optionalPart "pattern" .pattern) (decode.optionalPart "guard" .expr)
    (decode.parts "body" .stmt) .switchCase

def switchExprCase : Schema (Phrase .switchExprCase) :=
  tripleSchema (decode.part "pattern" .pattern) (decode.optionalPart "guard" .expr)
    (decode.part "body" .expr) .switchExprCase

def catchClause : Schema (Phrase .catchClause) :=
  tripleSchema (optionalType "exception_type") (optionalName "param")
    (decode.part "body" .block) .catchClause

/-- One step of decoding: the decoders of all categories from the decoders of
their parts. -/
def step : PhraseDecoder
  | .expr => Json.tagged decode.exprs
  | .stmt => Json.tagged decode.stmts
  | .pattern => Json.tagged decode.patterns
  | .block => decode.block.decode
  | .body => decode.body.decode
  | .bodyKind => Json.paired decode.bodyKinds
  | .param => decode.param.decode
  | .declarator => decode.declarator.decode
  | .argument => decode.argument.decode
  | .mapEntry => decode.mapEntry.decode
  | .patternField => decode.patternField.decode
  | .switchCase => decode.switchCase.decode
  | .switchExprCase => decode.switchExprCase.decode
  | .catchClause => decode.catchClause.decode
  | .variableDecl => decode.variableDecl.decode
  | .functionDecl => decode.functionDecl.decode
  | .closure => decode.closure.decode
  | .list c => fun place reading =>
    (Json.Decode.list (decode c) place reading).map Phrase.ofList
  | .option c => fun place reading =>
    (Json.Decode.nullable (decode c) place reading).map Phrase.ofOption

/-- Decoders of phrases that nest at most `fuel` steps. -/
def nested : (fuel : Nat) → PhraseDecoder
  | 0 => fun _ _ reading => .error (Json.mistyped reading)
  | fuel + 1 => step (nested fuel)

end PhraseDecoder

/-- Decode a phrase. Of two nested steps at least one opens an array or object,
so twice the room is enough fuel. -/
def Phrase.decode : PhraseDecoder := fun c place =>
  PhraseDecoder.nested (2 * place.room + 2) c place

end SetupLint
