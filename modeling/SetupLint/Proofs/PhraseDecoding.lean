import Mathlib.Data.List.Basic
import SetupLint.Proofs.NameDecoding
import SetupLint.Proofs.Part

/-! Reading back phrases. One step of decoding reads a phrase if the decoders that it is given
read the parts; then the decoder of the whole tree reads every phrase, by induction over the
parts. -/
namespace SetupLint

open Json (Decoder Document Reads RecordField RecordFields Schema someMembers)

section Schemas

variable {bound : Nat} {α β γ δ ε : Type} (span : Span)
  {first : RecordField α} {second : RecordField β} {third : RecordField γ} {fourth : RecordField δ}
  {members others more further : List (String × Document)} {a : α} {b : β} {c : γ} {d : δ}

/-- The last field of a record. -/
theorem Json.RecordFields.Writes.last (h : first.Writes bound members a) :
    RecordFields.Writes bound (.cons first .nil) members (a, ()) := by
  have hWrites := RecordFields.Writes.cons h .nil
  rwa [List.append_nil] at hWrites

/-- A node of which only the span is written. -/
theorem writes_alone (bound : Nat) (make : Span → α) :
    (spanSchema make).Writes bound [spanMember span] (make span) :=
  ⟨(span, ()), .last (writes_span bound span), rfl⟩

theorem writes_one (make : Span → α → β) (hFirst : first.Writes bound members a) :
    (partSchema first make).Writes bound (spanMember span :: members) (make span a) :=
  ⟨(span, a, ()), .cons (writes_span bound span) (.last hFirst), rfl⟩

theorem writes_two (make : Span → α → β → γ) (hFirst : first.Writes bound members a)
    (hSecond : second.Writes bound others b) :
    (pairSchema first second make).Writes bound (spanMember span :: (members ++ others))
      (make span a b) :=
  ⟨(span, a, b, ()), .cons (writes_span bound span) (.cons hFirst (.last hSecond)), rfl⟩

theorem writes_three (make : Span → α → β → γ → δ) (hFirst : first.Writes bound members a)
    (hSecond : second.Writes bound others b) (hThird : third.Writes bound more c) :
    (tripleSchema first second third make).Writes bound
      (spanMember span :: (members ++ (others ++ more))) (make span a b c) :=
  ⟨(span, a, b, c, ()),
    .cons (writes_span bound span) (.cons hFirst (.cons hSecond (.last hThird))), rfl⟩

theorem writes_four (make : Span → α → β → γ → δ → ε) (hFirst : first.Writes bound members a)
    (hSecond : second.Writes bound others b) (hThird : third.Writes bound more c)
    (hFourth : fourth.Writes bound further d) :
    (fourfoldSchema first second third fourth make).Writes bound
      (spanMember span :: (members ++ (others ++ (more ++ further)))) (make span a b c d) :=
  ⟨(span, a, b, c, d, ()),
    .cons (writes_span bound span) (.cons hFirst (.cons hSecond (.cons hThird (.last hFourth)))),
    rfl⟩

theorem Json.Schema.Writes.map {schema : Schema α} (h : schema.Writes bound members a)
    (f : α → β) : (schema.map f).Writes bound members (f a) := by
  obtain ⟨values, hWrites, rfl⟩ := h
  exact ⟨values, hWrites, rfl⟩

end Schemas

/-- The names of the fields of each variant. -/
def fieldNames {α : Type} (variants : List (String × Schema α)) : List (List String) :=
  variants.map fun variant => variant.2.fields.names

/-- A variant is read if no name of a field occurs twice or is the key of the tag. -/
theorem reads_variant {bound : Nat} {α : Type} {schema : Schema α}
    {variants : List (String × Schema α)} {members : List (String × Document)} {a : α}
    (hNames : ∀ names ∈ fieldNames variants, (Json.tagKey :: names).Nodup) (tag : String)
    (h : schema.Writes bound members a) (hTag : variants.lookup tag = some schema) :
    Reads (bound + 1) (Json.tagged variants) (.object (tagged tag members)) a := by
  refine h.reads_tagged (hNames _ ?_) hTag
  obtain ⟨before, after, rfl, -⟩ := List.lookup_eq_some_iff.mp hTag
  simp [fieldNames]

/-- Whether the phrases of a category are neither lists nor optional parts. -/
def Category.isNode : Category → Bool
  | .list _ => false
  | .option _ => false
  | _ => true

/-- The walk that collects the doubles among the literals. -/
def Walk.doubles : Walk PUnit Double where
  visit p _ := match p with
    | .literal _ (.double d) => [d]
    | _ => []

/-- What is not a value is closed to an array or an object. -/
theorem Json.close_ne_null : {p : Json.Part} → p ≠ .value → (tree : Json Empty p) →
    tree.close ≠ .null
  | .value, h, _ => absurd rfl h
  | .items, _, _ => nofun
  | .members, _, _ => nofun

namespace Phrase

/-- A phrase is read by `decode`; an optional one is read if it is there. -/
def ReadBy (bound : Nat) (decode : PhraseDecoder) : {c : Category} → Phrase c → Prop
  | .option c, p => ∀ value, p = .some value → Reads bound (decode (.option c)) value.document p
  | c, p => Reads bound (decode c) p.document p

/-- The phrases whose own documents a document contains. A statement or an expression that only
gives its tag to a declaration, a block or a function shares their members. -/
def contents : {c : Category} → Phrase c → List Node
  | _, .function fn => fn.parts
  | _, .blockStmt inner => inner.parts
  | _, .variableStmt decl => decl.parts
  | _, .functionStmt decl => decl.parts
  | _, p => p.parts

variable {bound : Nat} {decode : PhraseDecoder} {c : Category}

/-- A part that must be present is written as one member. -/
theorem writes_part (name : String) {p : Phrase c} (h : Reads bound (decode c) p.document p) :
    (decode.part name c).Writes bound [(name, p.document)] p := .present h

theorem writes_parts (name : String) {p : Phrase (.list c)} (h : p.ReadBy bound decode) :
    (decode.parts name c).Writes bound [(name, .array p.encode)] p := .present h

/-- A part that may be missing is not written then. -/
theorem writes_optionalPart (name : String) {p : Phrase (.option c)} (h : p.ReadBy bound decode) :
    (decode.optionalPart name c).Writes bound (optionally name p.encode.first?) p := by
  cases p with
  | none => exact .absent rfl
  | some value => exact .present (h value rfl)

/-- A block writes its fields if its parts are read. -/
theorem writes_block (p : Block) (h : p.parts.Forall fun part => part.phrase.ReadBy bound decode) :
    ∃ members, p.encode = someMembers members ∧ decode.block.Writes bound members p := by
  cases p with
  | block span statements => exact ⟨_, rfl, writes_one span block (writes_parts "statements" h)⟩

theorem writes_closure (p : Closure)
    (h : p.parts.Forall fun part => part.phrase.ReadBy bound decode) :
    ∃ members, p.encode = someMembers members ∧ decode.closure.Writes bound members p := by
  cases p with
  | closure span params inner =>
      obtain ⟨hParams, hBody⟩ := h
      exact ⟨_, rfl, writes_two span closure (writes_parts "params" hParams)
        (writes_part "body" hBody)⟩

theorem writes_variableDecl (p : VariableDecl)
    (h : p.parts.Forall fun part => part.phrase.ReadBy bound decode) :
    ∃ members, p.encode = someMembers members ∧ decode.variableDecl.Writes bound members p := by
  cases p with
  | variableDecl span keywords type declared =>
      exact ⟨_, rfl, writes_three span variableDecl (writes_keywords bound keywords)
        (writes_optionalType bound "ty" type) (writes_part "variables" h)⟩

theorem writes_functionDecl (p : FunctionDecl)
    (h : p.parts.Forall fun part => part.phrase.ReadBy bound decode) :
    ∃ members, p.encode = someMembers members ∧ decode.functionDecl.Writes bound members p := by
  cases p with
  | functionDecl span name returnType params inner =>
      obtain ⟨hParams, hBody⟩ := h
      exact ⟨_, rfl, writes_four span functionDecl (writes_name bound "name" name)
        (writes_optionalType bound "return_type" returnType) (writes_parts "params" hParams)
        (writes_part "body" hBody)⟩

-- The names do not depend on the decoders, so they are compared for decoders without variables.
/-- No field of an expression has the name of its tag or of another field. -/
theorem names_exprs (decode : PhraseDecoder) :
    ∀ names ∈ fieldNames decode.exprs, (Json.tagKey :: names).Nodup := by
  have h : ∀ names ∈ fieldNames (PhraseDecoder.nested 0).exprs, (Json.tagKey :: names).Nodup := by
    decide
  exact h

theorem names_stmts (decode : PhraseDecoder) :
    ∀ names ∈ fieldNames decode.stmts, (Json.tagKey :: names).Nodup := by
  have h : ∀ names ∈ fieldNames (PhraseDecoder.nested 0).stmts, (Json.tagKey :: names).Nodup := by
    decide
  exact h

theorem names_patterns (decode : PhraseDecoder) :
    ∀ names ∈ fieldNames decode.patterns, (Json.tagKey :: names).Nodup := by
  have h : ∀ names ∈ fieldNames (PhraseDecoder.nested 0).patterns,
      (Json.tagKey :: names).Nodup := by decide
  exact h

/-- An expression without parts is read if it is no double. -/
theorem reads_atom (p : Expr) (hParts : p.parts = [])
    (hLiteral : ∀ span d, p ≠ .literal span (.double d)) :
    Reads (bound + 1) (Json.tagged decode.exprs) p.document p := by
  have hNames := names_exprs decode
  cases p with
  | identifier span name resolved =>
      have hWrites := writes_two span identifier
        (writes_required "name" (Json.reads_text bound name)) (writes_resolved bound resolved)
      exact reads_variant hNames "Identifier" hWrites rfl
  | «this» span => exact reads_variant hNames "This" (writes_alone span bound this) rfl
  | literal span value =>
      have hValue := value.reads bound fun d hd => hLiteral span d (by rw [hd])
      have hWrites := writes_one span literal (writes_required "value" hValue)
      exact reads_variant hNames "Literal" hWrites rfl
  | cascadeReceiver span =>
      exact reads_variant hNames "CascadeReceiver" (writes_alone span bound cascadeReceiver) rfl
  | _ => nomatch hParts

/-- A call writes its fields, the resolution only if there is one. -/
theorem writes_call (span : Span) {target : Phrase (.option .expr)} (method : Name)
    (typeArgs : List TypeRef) {args : Phrase (.list .argument)} (nullAware : Bool)
    (resolved : Option Resolution) (hTarget : target.ReadBy bound decode)
    (hArgs : args.ReadBy bound decode) :
    decode.call.Writes bound
      ([spanMember span] ++ optionally "target" target.encode.first? ++
        [("method", method.encode), typesMember "type_args" typeArgs,
         ("args", .array args.encode), flagMember "null_aware" nullAware] ++
        optionally "resolved" (resolved.map Resolution.encode))
      (call span target method typeArgs args nullAware resolved) := by
  have hFields := RecordFields.Writes.cons (writes_span bound span) <|
    .cons (writes_optionalPart "target" hTarget) <|
    .cons (writes_name bound "method" method) <|
    .cons (writes_types bound "type_args" typeArgs) <|
    .cons (writes_parts "args" hArgs) <|
    .cons (writes_flag bound "null_aware" nullAware) <|
    .last (writes_resolved bound resolved)
  refine ⟨(span, target, method, typeArgs, args, nullAware, resolved, ()), ?_, rfl⟩
  rw [List.append_assoc, List.append_assoc]
  exact hFields

/-- An expression with one part is read if the part is. -/
theorem reads_single {p : Expr} {part : Node} (hParts : p.parts = [part])
    (h : p.contents.Forall fun part => part.phrase.ReadBy bound decode) :
    Reads (bound + 1) (Json.tagged decode.exprs) p.document p := by
  have hNames := names_exprs decode
  cases p with
  | interpolation span expressions =>
      have hWrites := writes_one span interpolation (writes_parts "expressions" h)
      exact reads_variant hNames "Interpolation" hWrites rfl
  | listLiteral span typeArgs isConst elements =>
      have hWrites := writes_three span listLiteral (writes_types bound "type_args" typeArgs)
        (writes_flag bound "is_const" isConst) (writes_parts "elements" h)
      exact reads_variant hNames "List" hWrites rfl
  | mapLiteral span typeArgs isConst entries =>
      have hWrites := writes_three span mapLiteral (writes_types bound "type_args" typeArgs)
        (writes_flag bound "is_const" isConst) (writes_parts "entries" h)
      exact reads_variant hNames "Map" hWrites rfl
  | spread span operand nullAware =>
      have hWrites := writes_two span spread (writes_part "argument" h)
        (writes_flag bound "null_aware" nullAware)
      exact reads_variant hNames "Spread" hWrites rfl
  | property span target name nullAware =>
      have hWrites := writes_three span property (writes_part "target" h)
        (writes_name bound "property" name) (writes_flag bound "null_aware" nullAware)
      exact reads_variant hNames "PropertyAccess" hWrites rfl
  | create span type constructor args isConst =>
      have hWrites := writes_four span create (writes_type bound "ty" type)
        (writes_optionalName bound "constructor" constructor) (writes_parts "args" h)
        (writes_flag bound "is_const" isConst)
      exact reads_variant hNames "New" hWrites rfl
  | function fn =>
      obtain ⟨members, hEncode, hWrites⟩ := writes_closure fn h
      have hDocument : (function fn).document =
          .object (.member Json.tagKey (.text "Function") fn.encode) := rfl
      rw [hDocument, hEncode]
      exact reads_variant hNames "Function" (hWrites.map function) rfl
  | update span operator isBefore operand =>
      have hWrites := writes_three span update (writes_word bound "operator" operator)
        (writes_flag bound "prefix" isBefore) (writes_part "argument" h)
      exact reads_variant hNames "Update" hWrites rfl
  | unary span operator operand =>
      have hWrites := writes_two span unary (writes_word bound "operator" operator)
        (writes_part "argument" h)
      exact reads_variant hNames "Unary" hWrites rfl
  | await span operand =>
      have hWrites := writes_one span await (writes_part "argument" h)
      exact reads_variant hNames "Await" hWrites rfl
  | paren span expression =>
      have hWrites := writes_one span paren (writes_part "expression" h)
      exact reads_variant hNames "Paren" hWrites rfl
  | typeTest span kind expression type =>
      have hWrites := writes_three span typeTest (writes_word bound "kind" kind)
        (writes_part "expression" h) (writes_type bound "ty" type)
      exact reads_variant hNames "TypeTest" hWrites rfl
  | throw span operand =>
      have hWrites := writes_one span throw (writes_part "argument" h)
      exact reads_variant hNames "Throw" hWrites rfl
  | _ => nomatch hParts

/-- An expression with several parts is read if they are. -/
theorem reads_several {p : Expr} {first second : Node} {others : List Node}
    (hParts : p.parts = first :: second :: others)
    (h : p.contents.Forall fun part => part.phrase.ReadBy bound decode) :
    Reads (bound + 1) (Json.tagged decode.exprs) p.document p := by
  have hNames := names_exprs decode
  cases p with
  | index span target position =>
      obtain ⟨hTarget, hPosition⟩ := h
      have hWrites := writes_two span index (writes_part "target" hTarget)
        (writes_part "index" hPosition)
      exact reads_variant hNames "Index" hWrites rfl
  | assign span operator target value =>
      obtain ⟨hTarget, hValue⟩ := h
      have hOperator := writes_defaulted "operator" AssignOp.assign (Json.reads_word bound operator)
      have hWrites := writes_three span assign hOperator (writes_part "target" hTarget)
        (writes_part "value" hValue)
      exact reads_variant hNames "Assign" hWrites rfl
  | conditional span test consequent alternate =>
      obtain ⟨hTest, hConsequent, hAlternate⟩ := h
      have hWrites := writes_three span conditional (writes_part "test" hTest)
        (writes_part "consequent" hConsequent) (writes_part "alternate" hAlternate)
      exact reads_variant hNames "Conditional" hWrites rfl
  | switchExpr span discriminant cases =>
      obtain ⟨hDiscriminant, hCases⟩ := h
      have hWrites := writes_two span switchExpr (writes_part "discriminant" hDiscriminant)
        (writes_parts "cases" hCases)
      exact reads_variant hNames "Switch" hWrites rfl
  | binary span operator left right =>
      obtain ⟨hLeft, hRight⟩ := h
      have hOperator := writes_required "operator" (Json.reads_text bound operator)
      have hWrites := writes_three span binary hOperator (writes_part "left" hLeft)
        (writes_part "right" hRight)
      exact reads_variant hNames "Binary" hWrites rfl
  | cascade span target sections =>
      obtain ⟨hTarget, hSections⟩ := h
      have hWrites := writes_two span cascade (writes_part "target" hTarget)
        (writes_parts "sections" hSections)
      exact reads_variant hNames "Cascade" hWrites rfl
  | call span target method typeArgs args nullAware resolved =>
      obtain ⟨hTarget, hArgs⟩ := h
      have hWrites := writes_call span method typeArgs nullAware resolved hTarget hArgs
      exact reads_variant hNames "Call" hWrites rfl
  | _ => nomatch hParts

/-- An expression is read if its parts are and it is no double. -/
theorem reads_expr (p : Expr) (h : p.contents.Forall fun part => part.phrase.ReadBy bound decode)
    (hLiteral : ∀ span d, p ≠ .literal span (.double d)) :
    Reads (bound + 1) (Json.tagged decode.exprs) p.document p := by
  match hParts : p.parts with
  | [] => exact reads_atom p hParts hLiteral
  | [_] => exact reads_single hParts h
  | _ :: _ :: _ => exact reads_several hParts h

/-- A statement without parts reads back on its own. -/
theorem reads_leafStmt {p : Stmt} (hParts : p.parts = []) :
    Reads (bound + 1) (Json.tagged decode.stmts) p.document p := by
  have hNames := names_stmts decode
  cases p with
  | breakStmt span label =>
      have hWrites := writes_one span breakStmt (writes_optionalName bound "label" label)
      exact reads_variant hNames "Break" hWrites rfl
  | continueStmt span label =>
      have hWrites := writes_one span continueStmt (writes_optionalName bound "label" label)
      exact reads_variant hNames "Continue" hWrites rfl
  | emptyStmt span => exact reads_variant hNames "Empty" (writes_alone span bound emptyStmt) rfl
  | _ => nomatch hParts

/-- A statement with one part is read if the part is, or if the parts of the part are where the
two share their members. -/
theorem reads_singleStmt {p : Stmt} {part : Node} (hParts : p.parts = [part])
    (h : p.contents.Forall fun part => part.phrase.ReadBy bound decode) :
    Reads (bound + 1) (Json.tagged decode.stmts) p.document p := by
  have hNames := names_stmts decode
  cases p with
  | blockStmt inner =>
      obtain ⟨members, hEncode, hWrites⟩ := writes_block inner h
      have hDocument : (blockStmt inner).document =
          .object (.member Json.tagKey (.text "Block") inner.encode) := rfl
      rw [hDocument, hEncode]
      exact reads_variant hNames "Block" (hWrites.map blockStmt) rfl
  | expressionStmt span expression =>
      have hWrites := writes_one span expressionStmt (writes_part "expression" h)
      exact reads_variant hNames "Expression" hWrites rfl
  | variableStmt decl =>
      obtain ⟨members, hEncode, hWrites⟩ := writes_variableDecl decl h
      have hDocument : (variableStmt decl).document =
          .object (.member Json.tagKey (.text "Variable") decl.encode) := rfl
      rw [hDocument, hEncode]
      exact reads_variant hNames "Variable" (hWrites.map variableStmt) rfl
  | functionStmt decl =>
      obtain ⟨members, hEncode, hWrites⟩ := writes_functionDecl decl h
      have hDocument : (functionStmt decl).document =
          .object (.member Json.tagKey (.text "Function") decl.encode) := rfl
      rw [hDocument, hEncode]
      exact reads_variant hNames "Function" (hWrites.map functionStmt) rfl
  | returnStmt span operand =>
      have hWrites := writes_one span returnStmt (writes_optionalPart "argument" h)
      exact reads_variant hNames "Return" hWrites rfl
  | _ => nomatch hParts

/-- A statement with several parts reads back if its contents do. -/
theorem reads_severalStmt {p : Stmt} {first second : Node} {others : List Node}
    (hParts : p.parts = first :: second :: others)
    (h : p.contents.Forall fun part => part.phrase.ReadBy bound decode) :
    Reads (bound + 1) (Json.tagged decode.stmts) p.document p := by
  have hNames := names_stmts decode
  cases p with
  | patternStmt span keywords pattern init =>
      obtain ⟨hPattern, hInit⟩ := h
      have hWrites := writes_three span patternStmt (writes_keywords bound keywords)
        (writes_part "pattern" hPattern) (writes_part "init" hInit)
      exact reads_variant hNames "Pattern" hWrites rfl
  | ifStmt span test consequent alternate =>
      obtain ⟨hTest, hConsequent, hAlternate⟩ := h
      have hWrites := writes_three span ifStmt (writes_part "test" hTest)
        (writes_part "consequent" hConsequent) (writes_optionalPart "alternate" hAlternate)
      exact reads_variant hNames "If" hWrites rfl
  | forStmt span init test step inner =>
      obtain ⟨hInit, hTest, hStep, hBody⟩ := h
      have hWrites := writes_four span forStmt (writes_optionalPart "init" hInit)
        (writes_optionalPart "test" hTest) (writes_parts "update" hStep) (writes_part "body" hBody)
      rw [← List.append_assoc] at hWrites
      exact reads_variant hNames "For" hWrites rfl
  | forInStmt span binding iterable isAwait inner =>
      obtain ⟨hBinding, hIterable, hBody⟩ := h
      have hWrites := writes_four span forInStmt (writes_part "binding" hBinding)
        (writes_part "iterable" hIterable) (writes_flag bound "is_await" isAwait)
        (writes_part "body" hBody)
      exact reads_variant hNames "ForIn" hWrites rfl
  | whileStmt span test inner =>
      obtain ⟨hTest, hBody⟩ := h
      have hWrites := writes_two span whileStmt (writes_part "test" hTest)
        (writes_part "body" hBody)
      exact reads_variant hNames "While" hWrites rfl
  | doWhileStmt span inner test =>
      obtain ⟨hBody, hTest⟩ := h
      have hWrites := writes_two span doWhileStmt (writes_part "body" hBody)
        (writes_part "test" hTest)
      exact reads_variant hNames "DoWhile" hWrites rfl
  | switchStmt span discriminant cases =>
      obtain ⟨hDiscriminant, hCases⟩ := h
      have hWrites := writes_two span switchStmt (writes_part "discriminant" hDiscriminant)
        (writes_parts "cases" hCases)
      exact reads_variant hNames "Switch" hWrites rfl
  | tryStmt span inner handlers finalizer =>
      obtain ⟨hBlock, hHandlers, hFinalizer⟩ := h
      have hWrites := writes_three span tryStmt (writes_part "block" hBlock)
        (writes_parts "handlers" hHandlers) (writes_optionalPart "finalizer" hFinalizer)
      exact reads_variant hNames "Try" hWrites rfl
  | _ => nomatch hParts

/-- A statement is read if its parts are. -/
theorem reads_stmt (p : Stmt) (h : p.contents.Forall fun part => part.phrase.ReadBy bound decode) :
    Reads (bound + 1) (Json.tagged decode.stmts) p.document p := by
  match hParts : p.parts with
  | [] => exact reads_leafStmt hParts
  | [_] => exact reads_singleStmt hParts h
  | _ :: _ :: _ => exact reads_severalStmt hParts h

/-- A pattern is read if its parts are. -/
theorem reads_pattern (p : Pattern)
    (h : p.parts.Forall fun part => part.phrase.ReadBy bound decode) :
    Reads (bound + 1) (Json.tagged decode.patterns) p.document p := by
  have hNames := names_patterns decode
  cases p with
  | variablePattern span name type =>
      have hWrites := writes_two span variablePattern (writes_name bound "name" name)
        (writes_optionalType bound "ty" type)
      exact reads_variant hNames "Variable" hWrites rfl
  | objectPattern span type fields =>
      have hWrites := writes_two span objectPattern (writes_type bound "ty" type)
        (writes_parts "fields" h)
      exact reads_variant hNames "Object" hWrites rfl
  | recordPattern span fields =>
      have hWrites := writes_one span recordPattern (writes_parts "fields" h)
      exact reads_variant hNames "Record" hWrites rfl
  | listPattern span elements =>
      have hWrites := writes_one span listPattern (writes_parts "elements" h)
      exact reads_variant hNames "List" hWrites rfl
  | constantPattern span expression =>
      have hWrites := writes_one span constantPattern (writes_part "expression" h)
      exact reads_variant hNames "Constant" hWrites rfl
  | wildcardPattern span =>
      exact reads_variant hNames "Wildcard" (writes_alone span bound wildcardPattern) rfl

/-- The kind of a body is read if its parts are. -/
theorem reads_bodyKind (p : Phrase .bodyKind)
    (h : p.parts.Forall fun part => part.phrase.ReadBy bound decode) :
    Reads (bound + 1) (Json.paired decode.bodyKinds) p.document p := by
  cases p with
  | blockBody inner => exact (Reads.map h blockBody).paired rfl
  | exprBody expression => exact (Reads.map h exprBody).paired rfl
  | noBody => exact Json.reads_paired_bare rfl

/-! ### Records without a tag -/

/-- A body reads back, with its kind as a tag beside the content. -/
theorem reads_body (p : Body) (h : p.parts.Forall fun part => part.phrase.ReadBy bound decode) :
    Reads (bound + 1) (decode.step .body) p.document p := by
  cases p with
  | body span modifier kind =>
      have hModifier := writes_defaulted "modifier" BodyModifier.sync
        (Json.reads_word bound modifier)
      have hWrites := writes_two span body hModifier (writes_part "kind" h)
      exact hWrites.reads (by decide : ["span", "modifier", "kind"].Nodup)

/-- A parameter reads back if its default value does. -/
theorem reads_param (p : Phrase .param)
    (h : p.parts.Forall fun part => part.phrase.ReadBy bound decode) :
    Reads (bound + 1) (decode.step .param) p.document p := by
  cases p with
  | param span name type named default =>
      have hWrites := writes_four span param (writes_name bound "name" name)
        (writes_optionalType bound "ty" type) (writes_flag bound "named" named)
        (writes_optionalPart "default_value" h)
      simp only [← List.append_assoc] at hWrites
      exact hWrites.reads (by decide : ["span", "name", "ty", "named", "default_value"].Nodup)

theorem reads_declarator (p : Declarator)
    (h : p.parts.Forall fun part => part.phrase.ReadBy bound decode) :
    Reads (bound + 1) (decode.step .declarator) p.document p := by
  cases p with
  | declarator span name init =>
      have hWrites := writes_two span declarator (writes_name bound "name" name)
        (writes_optionalPart "init" h)
      exact hWrites.reads (by decide : ["span", "name", "init"].Nodup)

/-- An argument reads back, with its label if it has one. -/
theorem reads_argument (p : Argument)
    (h : p.parts.Forall fun part => part.phrase.ReadBy bound decode) :
    Reads (bound + 1) (decode.step .argument) p.document p := by
  cases p with
  | argument label value =>
      have hWrites : decode.argument.Writes bound _ (argument label value) :=
        ⟨_, .cons (writes_optionalName bound "name" label) (.last (writes_part "value" h)), rfl⟩
      exact hWrites.reads (by decide : ["name", "value"].Nodup)

theorem reads_mapEntry (p : Phrase .mapEntry)
    (h : p.parts.Forall fun part => part.phrase.ReadBy bound decode) :
    Reads (bound + 1) (decode.step .mapEntry) p.document p := by
  cases p with
  | mapEntry key value =>
      obtain ⟨hKey, hValue⟩ := h
      have hWrites : decode.mapEntry.Writes bound _ (mapEntry key value) :=
        ⟨_, .cons (writes_part "key" hKey) (.last (writes_optionalPart "value" hValue)), rfl⟩
      exact hWrites.reads (by decide : ["key", "value"].Nodup)

theorem reads_patternField (p : Phrase .patternField)
    (h : p.parts.Forall fun part => part.phrase.ReadBy bound decode) :
    Reads (bound + 1) (decode.step .patternField) p.document p := by
  cases p with
  | patternField label pattern =>
      have hWrites : decode.patternField.Writes bound _ (patternField label pattern) :=
        ⟨_, .cons (writes_optionalName bound "name" label) (.last (writes_part "pattern" h)), rfl⟩
      exact hWrites.reads (by decide : ["name", "pattern"].Nodup)

theorem reads_switchCase (p : Phrase .switchCase)
    (h : p.parts.Forall fun part => part.phrase.ReadBy bound decode) :
    Reads (bound + 1) (decode.step .switchCase) p.document p := by
  cases p with
  | switchCase span pattern guard inner =>
      obtain ⟨hPattern, hGuard, hBody⟩ := h
      have hWrites := writes_three span switchCase (writes_optionalPart "pattern" hPattern)
        (writes_optionalPart "guard" hGuard) (writes_parts "body" hBody)
      rw [← List.append_assoc] at hWrites
      exact hWrites.reads (by decide : ["span", "pattern", "guard", "body"].Nodup)

theorem reads_switchExprCase (p : Phrase .switchExprCase)
    (h : p.parts.Forall fun part => part.phrase.ReadBy bound decode) :
    Reads (bound + 1) (decode.step .switchExprCase) p.document p := by
  cases p with
  | switchExprCase span pattern guard inner =>
      obtain ⟨hPattern, hGuard, hBody⟩ := h
      have hWrites := writes_three span switchExprCase (writes_part "pattern" hPattern)
        (writes_optionalPart "guard" hGuard) (writes_part "body" hBody)
      exact hWrites.reads (by decide : ["span", "pattern", "guard", "body"].Nodup)

theorem reads_catchClause (p : Phrase .catchClause)
    (h : p.parts.Forall fun part => part.phrase.ReadBy bound decode) :
    Reads (bound + 1) (decode.step .catchClause) p.document p := by
  cases p with
  | catchClause span exceptionType caught inner =>
      have hWrites := writes_three span catchClause
        (writes_optionalType bound "exception_type" exceptionType)
        (writes_optionalName bound "param" caught) (writes_part "body" h)
      rw [← List.append_assoc] at hWrites
      exact hWrites.reads (by decide : ["span", "exception_type", "param", "body"].Nodup)

/-- Only the phrases that give no more than a tag have other contents than their parts. -/
theorem contents_eq_parts (p : Phrase c) (h : c ≠ .expr ∧ c ≠ .stmt) : p.contents = p.parts := by
  cases p <;> first | rfl | exact absurd rfl h.1 | exact absurd rfl h.2

/-- One step of decoding reads a phrase that is no list and no optional part. -/
theorem reads_step (p : Phrase c) (hNode : c.isNode)
    (h : p.contents.Forall fun part => part.phrase.ReadBy bound decode)
    (hLiteral : ∀ span d, ⟨p⟩ ≠ (⟨literal span (.double d)⟩ : Node)) :
    Reads (bound + 1) (decode.step c) p.document p := by
  by_cases hTagged : c = .expr ∨ c = .stmt
  · rcases hTagged with rfl | rfl
    · exact reads_expr p h fun span d hp => hLiteral span d (by rw [hp])
    · exact reads_stmt p h
  rw [contents_eq_parts p (not_or.mp hTagged)] at h
  cases c with
  | expr => exact absurd (.inl rfl) hTagged
  | stmt => exact absurd (.inr rfl) hTagged
  | pattern => exact reads_pattern p h
  | block =>
      obtain ⟨members, hEncode, hWrites⟩ := writes_block p h
      rw [document, hEncode]
      exact hWrites.reads (by decide : ["span", "statements"].Nodup)
  | body => exact reads_body p h
  | bodyKind => exact reads_bodyKind p h
  | param => exact reads_param p h
  | declarator => exact reads_declarator p h
  | argument => exact reads_argument p h
  | mapEntry => exact reads_mapEntry p h
  | patternField => exact reads_patternField p h
  | switchCase => exact reads_switchCase p h
  | switchExprCase => exact reads_switchExprCase p h
  | catchClause => exact reads_catchClause p h
  | variableDecl =>
      obtain ⟨members, hEncode, hWrites⟩ := writes_variableDecl p h
      rw [document, hEncode]
      exact hWrites.reads (by decide : ["span", "keywords", "ty", "variables"].Nodup)
  | functionDecl =>
      obtain ⟨members, hEncode, hWrites⟩ := writes_functionDecl p h
      rw [document, hEncode]
      exact hWrites.reads (by decide : ["span", "name", "return_type", "params", "body"].Nodup)
  | closure =>
      obtain ⟨members, hEncode, hWrites⟩ := writes_closure p h
      rw [document, hEncode]
      exact hWrites.reads (by decide : ["span", "params", "body"].Nodup)
  | list d => cases hNode
  | option d => cases hNode

/-! The decoder of the whole tree. Of its fuel two are enough for each array or object that may
still be opened, and a list or an optional part takes one more step than its items. -/

/-- A phrase is read wherever there is enough fuel. -/
def IsRead (p : Phrase c) : Prop :=
  ∀ bound fuel, 2 * bound ≤ fuel + 1 → Reads bound (PhraseDecoder.nested fuel c) p.document p

/-- A phrase is read if all its nodes are: a list or an optional part if its items are. -/
def Legible : {c : Category} → Phrase c → Prop
  | .list c, p => c.isNode → ∀ item ∈ p.toList, item.IsRead
  | .option c, p => c.isNode → ∀ value, p = .some value → value.IsRead
  | _, p => p.IsRead

/-- A phrase is read if one step reads it wherever the rest of the fuel is enough. -/
theorem isRead_of_step {p : Phrase c} (h : ∀ bound fuel, 2 * bound ≤ fuel →
    Reads (bound + 1) ((PhraseDecoder.nested fuel).step c) p.document p) : p.IsRead := by
  intro bound fuel hFuel
  cases bound with
  | zero => exact ⟨(h 0 0 (Nat.le_refl 0)).exact, fun place hRoom => by omega⟩
  | succ bound =>
      cases fuel with
      | zero => omega
      | succ fuel => exact h bound fuel (by omega)

/-- A list is written as the array of its elements. -/
theorem document_list (p : Phrase (.list c)) : p.document = Json.list (p.toList.map document) := by
  have hEncode : p.encode = (p.toList.map document).foldr .item .noItems := by
    induction p using induction_list with
    | nil => rfl
    | cons head tail ih => exact congrArg (Json.item head.document) ih
  rw [document, hEncode]
  rfl

theorem ofList_toList (p : Phrase (.list c)) : ofList p.toList = p := by
  induction p using induction_list with
  | nil => rfl
  | cons head tail ih => rw [toList_cons, ofList, ih]

/-- A list is read if its items are. -/
theorem isRead_list {p : Phrase (.list c)} (h : ∀ item ∈ p.toList, item.IsRead) : p.IsRead := by
  refine isRead_of_step fun bound fuel hFuel => ?_
  have hItems := Json.reads_list fun item hItem => h item hItem bound fuel (by omega)
  have hRead := hItems.map ofList
  rw [ofList_toList, ← document_list] at hRead
  exact hRead

/-- An optional part is read if it is there. -/
theorem reads_some {p : Phrase c} (h : p.IsRead) {bound fuel : Nat} (hFuel : 2 * bound ≤ fuel) :
    Reads bound (PhraseDecoder.nested fuel (.option c)) p.document (.some p) := by
  cases fuel with
  | zero => exact ⟨(h 0 0 (by omega)).exact, fun place hRoom => by omega⟩
  | succ fuel =>
      have hPart : c.part ≠ .value := by cases c <;> nofun
      have hValue := (h bound fuel (by omega)).nullable (Json.close_ne_null hPart p.encode)
      exact hValue.map ofOption

/-- What is legible and stands for itself is read. -/
theorem isRead_of_legible {p : Phrase c} (h : p.Legible) (hNode : c.isNode) : p.IsRead := by
  cases c with
  | list d => cases hNode
  | option d => cases hNode
  | _ => exact h

/-- A part that is legible is read where it stands. -/
theorem readBy_of_legible {p : Phrase c} (h : p.Legible) (hNode : c.item.isNode)
    {bound fuel : Nat} (hFuel : 2 * bound ≤ fuel) : p.ReadBy bound (PhraseDecoder.nested fuel) := by
  cases c with
  | list d => exact isRead_list (h hNode) bound fuel (by omega)
  | option d =>
      intro value hValue
      subst hValue
      exact reads_some (h hNode value rfl) hFuel
  | _ => exact h bound fuel (by omega)

/-- The contents of a node are nodes, lists of nodes or optional nodes. -/
theorem isNode_contents (p : Phrase c) (hNode : c.isNode) :
    ∀ part ∈ p.contents, part.category.item.isNode := by
  cases p with
  | function fn => cases fn; simp [contents, parts, Category.item, Category.isNode]
  | blockStmt inner => cases inner; simp [contents, parts, Category.item, Category.isNode]
  | variableStmt decl => cases decl; simp [contents, parts, Category.item, Category.isNode]
  | functionStmt decl => cases decl; simp [contents, parts, Category.item, Category.isNode]
  | nil => cases hNode
  | cons => cases hNode
  | none => cases hNode
  | some => cases hNode
  | _ => simp [contents, parts, Category.item, Category.isNode]

/-- The contents of a phrase are its parts or parts of these. -/
theorem mem_contents (p : Phrase c) {node : Node} (h : node ∈ p.contents) :
    node ∈ p.parts ∨ ∃ part ∈ p.parts, node ∈ part.phrase.parts := by
  unfold contents at h
  split at h
  case h_1 fn => exact .inr ⟨⟨fn⟩, by simp [parts], h⟩
  case h_2 inner => exact .inr ⟨⟨inner⟩, by simp [parts], h⟩
  case h_3 decl => exact .inr ⟨⟨decl⟩, by simp [parts], h⟩
  case h_4 decl => exact .inr ⟨⟨decl⟩, by simp [parts], h⟩
  case h_5 => exact .inl h

/-- In a phrase without doubles the parts have none. -/
theorem doubles_parts {p : Phrase c} (h : p.walk .doubles () = []) :
    ∀ part ∈ p.parts, part.phrase.walk .doubles () = [] := by
  intro part hPart
  rw [walk_eq, List.append_eq_nil_iff, List.flatMap_eq_nil_iff] at h
  obtain ⟨i, hIndex⟩ := List.mem_iff_getElem?.mp hPart
  exact h.2 (part, i) (List.mk_mem_zipIdx_iff_getElem?.mpr hIndex)

/-- A phrase is legible as soon as its parts and their parts are, unless it is a double. -/
theorem legible_of_parts (p : Phrase c) (hParts : ∀ part ∈ p.parts, part.phrase.Legible)
    (hInner : ∀ part ∈ p.parts, ∀ inner ∈ part.phrase.parts, inner.phrase.Legible)
    (hLiteral : ∀ span d, ⟨p⟩ ≠ (⟨literal span (.double d)⟩ : Node)) : p.Legible := by
  have hNode (hNode : c.isNode) : p.IsRead := by
    refine isRead_of_step fun bound fuel hFuel => reads_step p hNode ?_ hLiteral
    refine List.forall_iff_forall_mem.mpr fun part hPart => ?_
    have hLegible : part.phrase.Legible := by
      rcases mem_contents p hPart with hMem | ⟨outer, hOuter, hMem⟩
      · exact hParts part hMem
      · exact hInner outer hOuter part hMem
    exact readBy_of_legible hLegible (isNode_contents p hNode part hPart) hFuel
  cases c with
  | list d =>
      intro hItem item hMem
      cases p with
      | nil => cases hMem
      | cons head tail =>
          rcases List.mem_cons.mp hMem with rfl | hMem
          · exact isRead_of_legible (hParts ⟨_⟩ (by simp [parts])) hItem
          · exact hParts ⟨tail⟩ (by simp [parts]) hItem item hMem
  | option d =>
      intro hItem value hValue
      subst hValue
      exact isRead_of_legible (hParts ⟨value⟩ (by simp [parts])) hItem
  | _ => exact hNode rfl

/-- A phrase without doubles is read back. -/
theorem legible (p : Phrase c) (h : p.walk .doubles () = []) : p.Legible := by
  suffices hAll : (p.walk .doubles () = [] → p.Legible) ∧
      ∀ part ∈ p.parts, part.phrase.walk .doubles () = [] → part.phrase.Legible from hAll.1 h
  clear h
  induction p using induction_parts with
  | @step c p ih =>
      refine ⟨fun h => ?_, fun part hPart => (ih part hPart).1⟩
      have hDoubles := doubles_parts h
      refine legible_of_parts p (fun part hPart => (ih part hPart).1 (hDoubles part hPart)) ?_ ?_
      · intro part hPart inner hInner
        exact (ih part hPart).2 inner hInner (doubles_parts (hDoubles part hPart) inner hInner)
      · rintro span d hp
        cases hp
        cases h

end Phrase
end SetupLint
