import SetupLint.Proofs.DecodedDepth
import SetupLint.Proofs.UnitDecoding

/-! Writing what was read. A text may spell a unit in many ways, with nodes as arrays and with
much left out, and the unit is written in one. The text that is written is at most one level
deeper than any text that was read: what is left out in a text is written out as a span or an
empty list, and neither is deeper than that. The proof goes through the schemas of all nodes and
compares, field by field, what is written with what was read. -/
namespace SetupLint

open Json (Decoder Document RecordField Schema Shallow deepest)

/-- How deep the values of some members are. -/
def writtenDepth (members : List (String × Document)) : Nat :=
  deepest (fun member => member.2.depth) members

section Written

variable {member : String × Document} {members others : List (String × Document)} {key : String}

@[simp] theorem writtenDepth_nil : writtenDepth [] = 0 := rfl

@[simp]
theorem writtenDepth_cons :
    writtenDepth (member :: members) = max member.2.depth (writtenDepth members) := rfl

@[simp]
theorem writtenDepth_append :
    writtenDepth (members ++ others) = max (writtenDepth members) (writtenDepth others) := by
  induction members with
  | nil => simp
  | cons member members ih => simp [ih, Nat.max_assoc]

/-- A value that is missing has no depth. -/
@[simp]
theorem writtenDepth_optionally_map {α : Type} (encode : α → Document) (value : Option α) :
    writtenDepth (optionally key (value.map encode)) =
      value.elim 0 fun a => (encode a).depth := by
  cases value <;> simp [optionally]

/-- An optional part is as deep as the items it is written as. -/
@[simp]
theorem writtenDepth_optionally_first? {c : Category} (p : Phrase (.option c)) :
    writtenDepth (optionally key p.encode.first?) = p.encode.depth := by
  cases p <;> simp [Phrase.encode, Json.first?, optionally, Json.depth]

/-- Members are as deep as the deepest of them. -/
theorem depth_withMembers (rest : Json Empty .members) :
    (Json.withMembers members rest).depth = max (writtenDepth members) rest.depth := by
  induction members with
  | nil => simp [Json.withMembers]
  | cons member members ih =>
      rw [writtenDepth_cons, Nat.max_assoc, ← ih]
      rfl

@[simp]
theorem depth_tagged (tag : String) : (tagged tag members).depth = writtenDepth members := by
  simp [tagged, depth_withMembers, Json.depth]

@[simp]
theorem depth_untagged : (untagged members).depth = writtenDepth members := by
  simp [untagged, depth_withMembers, Json.depth]

/-- A record is one level deeper than its members. -/
@[simp]
theorem depth_record : (Json.record members).depth = writtenDepth members + 1 := by
  change (Json.withMembers members .noMembers).depth + 1 = _
  simp [depth_withMembers, Json.depth]

/-- An array is one level deeper than its deepest element. -/
@[simp]
theorem depth_list_map {α : Type} (encode : α → Document) (values : List α) :
    (Json.list (values.map encode)).depth = deepest (fun a => (encode a).depth) values + 1 := by
  have hItems : ((values.map encode).foldr .item (.noItems : Json Empty .items)).depth =
      deepest (fun a => (encode a).depth) values := by
    induction values with
    | nil => rfl
    | cons a values ih => rw [List.map_cons, List.foldr_cons, Json.depth, ih, deepest]
  exact congrArg (· + 1) hItems

@[simp]
theorem depth_close_items (items : Json Empty .items) : items.close.depth = items.depth + 1 := rfl

@[simp]
theorem depth_close_members (members : Json Empty .members) :
    members.close.depth = members.depth + 1 := rfl

/-! What is written for the parts of a node. -/

@[simp]
theorem Worded.depth_encode {α : Type} [Worded α] (a : α) : (Worded.encode a).depth = 0 := rfl

@[simp] theorem Span.depth_encode (span : Span) : span.encode.depth = 1 := by
  simp [Span.encode, Json.int, Json.depth]

@[simp] theorem Name.depth_encode (name : Name) : name.encode.depth = 2 := by
  simp [Name.encode, Json.depth]

/-- A keyword is an object with a span in it. -/
@[simp] theorem Keyword.depth_encode (keyword : Keyword) : keyword.encode.depth = 2 := by
  simp [Keyword.encode]

@[simp]
theorem Resolution.depth_encode (resolved : Resolution) : resolved.encode.depth = 1 := by
  cases hOwner : resolved.owner <;> simp [Resolution.encode, hOwner, optionally, Json.depth]

@[simp] theorem depth_spanMember (span : Span) : (spanMember span).2.depth = 1 := span.depth_encode

@[simp] theorem depth_flagMember (value : Bool) : (flagMember key value).2.depth = 0 := rfl

@[simp]
theorem depth_typesMember (types : List TypeRef) :
    (typesMember key types).2.depth = deepest (fun t => t.encode.depth) types + 1 := by
  rw [typesMember, TypeRef.encodeAll_eq, depth_list_map]

@[simp]
theorem depth_keywordsMember (keywords : List Keyword) :
    (keywordsMember keywords).2.depth = deepest (fun _ => 2) keywords + 1 := by
  simp [keywordsMember]

/-- A name is two levels deep, if there is one. -/
@[simp]
theorem writtenDepth_nameMember (name : Option Name) :
    writtenDepth (nameMember key name) = name.elim 0 fun _ => 2 := by
  simp [nameMember]

@[simp]
theorem writtenDepth_typeMember (type : Option TypeRef) :
    writtenDepth (typeMember key type) = type.elim 0 fun t => t.encode.depth := by
  simp [typeMember]

end Written

section Fields

variable {α : Type} {measure : α → Nat} {decode : Decoder α} {name : String}

/-- A field that must be present is as shallow as its values. -/
theorem shallow_required (h : Shallow measure decode) : (required name decode).Shallow measure where
  decode := h
  absent _ hAbsent := by cases hAbsent

/-- A default that is no deeper than one level keeps a field shallow. -/
theorem shallow_defaulted (h : Shallow measure decode) {value : α} (hValue : measure value ≤ 1) :
    (defaulted name decode value).Shallow measure where
  decode := h
  absent _ hAbsent := by
    cases hAbsent
    exact hValue

theorem shallow_optional (h : Shallow measure decode) :
    (optional name decode).Shallow fun a => a.elim 0 measure where
  decode := h.nullable
  absent _ hAbsent := by
    cases hAbsent
    exact Nat.zero_le 1

theorem shallow_flag : (flag name).Shallow fun _ => 0 :=
  shallow_defaulted Json.shallow_zero (Nat.zero_le 1)

/-! The parts of a node. A span is one level deep, and a name and a keyword are two, because their
spans are written also where they were left out. -/

theorem Span.shallow_decode : Shallow (fun _ => 1) Span.schema.decode := by
  have hSchema : Span.schema.Shallow fun _ => 0 :=
    ⟨_, .cons (shallow_required Json.shallow_zero) <|
      .cons (shallow_required Json.shallow_zero) .nil, fun _ => Nat.zero_le _⟩
  exact hSchema.decode

/-- A span is one level deep, so its field is shallow. -/
theorem shallow_span : spanField.Shallow fun _ => 1 := shallow_required Span.shallow_decode

theorem Name.shallow_decode : Shallow (fun _ => 2) Name.schema.decode := by
  have hSchema : Name.schema.Shallow fun _ => 1 :=
    ⟨_, .cons (shallow_required Json.shallow_zero) <|
      .cons (shallow_defaulted Span.shallow_decode (Nat.le_refl 1)) .nil,
      fun ⟨text, span, _⟩ => Nat.le_max_right _ _⟩
  exact hSchema.decode

theorem shallow_name : (nameField name).Shallow fun _ => 2 := shallow_required Name.shallow_decode

theorem shallow_optionalName : (optionalName name).Shallow fun a => a.elim 0 fun _ => 2 :=
  shallow_optional Name.shallow_decode

theorem Keyword.shallow_decode : Shallow (fun _ => 2) Keyword.schema.decode := by
  have hSchema : Keyword.schema.Shallow fun _ => 1 :=
    ⟨_, .cons (shallow_required Json.shallow_zero) <|
      .cons (shallow_defaulted Span.shallow_decode (Nat.le_refl 1)) .nil,
      fun ⟨kind, span, _⟩ => Nat.le_max_right _ _⟩
  exact hSchema.decode

theorem shallow_keywords :
    keywordsField.Shallow fun keywords => deepest (fun _ => 2) keywords + 1 :=
  shallow_defaulted Keyword.shallow_decode.list (Nat.le_refl 1)

theorem shallow_resolved : resolvedField.Shallow fun a => a.elim 0 fun _ => 1 := by
  have hSchema : Resolution.schema.Shallow fun _ => 0 :=
    ⟨_, .cons (shallow_required Json.shallow_zero) <|
      .cons (shallow_optional Json.shallow_zero) <| .cons shallow_flag .nil,
      fun _ => Nat.zero_le _⟩
  exact shallow_optional hSchema.decode

/-- A type is written at most one level deeper than it was read. -/
theorem TypeRef.shallow_decode : Shallow (fun t => t.encode.depth) TypeRef.decode := by
  have hNested (fuel : Nat) : Shallow (fun t => t.encode.depth) (decodeNested fuel) := by
    induction fuel with
    | zero => exact fun _ _ _ hDecode => by cases hDecode
    | succ fuel ih =>
        have hSchema : (schema (Json.Decode.list (decodeNested fuel))).Shallow fun t =>
            max 1 (deepest (fun t => t.encode.depth) t.args + 1) :=
          ⟨_, .cons (shallow_defaulted Span.shallow_decode (Nat.le_refl 1)) <|
            .cons (shallow_required Json.shallow_zero) <|
            .cons (shallow_defaulted ih.list (Nat.le_refl 1)) <| .cons shallow_flag .nil,
            fun ⟨span, text, args, nullable, _⟩ => by simp [schema, Json.Values.deepest]⟩
        intro place reading t hDecode
        have hDepth := hSchema.decode place reading t hDecode
        obtain ⟨span, text, args, nullable⟩ := t
        simpa [encode, encodeAll_eq, Json.depth] using hDepth
  exact fun place => hNested (place.room + 1) place

theorem shallow_type : (required name TypeRef.decode).Shallow fun t => t.encode.depth :=
  shallow_required TypeRef.shallow_decode

theorem shallow_optionalType :
    (optionalType name).Shallow fun a => a.elim 0 fun t => t.encode.depth :=
  shallow_optional TypeRef.shallow_decode

theorem shallow_types :
    (typesField name).Shallow fun types => deepest (fun t => t.encode.depth) types + 1 :=
  shallow_defaulted TypeRef.shallow_decode.list (Nat.le_refl 1)

/-- A literal is an object without objects in it. -/
theorem LiteralValue.depth_encode (value : LiteralValue) : value.encode.depth = 1 := by
  cases value <;> simp [encode, encodePair, optionally, Json.depth, Json.int]

theorem shallow_literal : (required name LiteralValue.decode).Shallow fun _ => 1 := by
  have hCases : ∀ case ∈ LiteralValue.cases, case.2.Shallow fun _ => 0 := by
    simp [LiteralValue.cases, Json.Case.Shallow, Json.shallow_zero]
  exact shallow_required (Json.shallow_paired hCases)

end Fields

section Nodes

variable {α β γ δ ε : Type} {measure : ε → Nat} {first : RecordField α} {second : RecordField β}
  {third : RecordField γ} {fourth : RecordField δ} {a : α → Nat} {b : β → Nat} {c : γ → Nat}
  {d : δ → Nat}

/-- A node with nothing but a span is shallow if it measures no more than the span. -/
theorem shallow_spanSchema {make : Span → ε} (h : ∀ span, measure (make span) ≤ 1) :
    (spanSchema make).Shallow measure :=
  ⟨_, .cons shallow_span .nil, fun ⟨span, _⟩ => Nat.le_trans (h span) (Nat.le_max_left _ _)⟩

/-- A node with one part is shallow if it measures no more than its deepest member. -/
theorem shallow_partSchema {make : Span → α → ε} (hFirst : first.Shallow a)
    (h : ∀ span x, measure (make span x) ≤ max 1 (a x)) :
    (partSchema first make).Shallow measure :=
  ⟨_, .cons shallow_span <| .cons hFirst .nil, fun ⟨span, x, _⟩ => by
    simpa [partSchema, Json.Values.deepest] using h span x⟩

theorem shallow_pairSchema {make : Span → α → β → ε} (hFirst : first.Shallow a)
    (hSecond : second.Shallow b)
    (h : ∀ span x y, measure (make span x y) ≤ max 1 (max (a x) (b y))) :
    (pairSchema first second make).Shallow measure :=
  ⟨_, .cons shallow_span <| .cons hFirst <| .cons hSecond .nil,
    fun ⟨span, x, y, _⟩ => by
      simpa [pairSchema, Json.Values.deepest] using h span x y⟩

theorem shallow_tripleSchema {make : Span → α → β → γ → ε} (hFirst : first.Shallow a)
    (hSecond : second.Shallow b) (hThird : third.Shallow c)
    (h : ∀ span x y z, measure (make span x y z) ≤ max 1 (max (a x) (max (b y) (c z)))) :
    (tripleSchema first second third make).Shallow measure :=
  ⟨_, .cons shallow_span <| .cons hFirst <| .cons hSecond <| .cons hThird .nil,
    fun ⟨span, x, y, z, _⟩ => by
      simpa [tripleSchema, Json.Values.deepest] using h span x y z⟩

theorem shallow_fourfoldSchema {make : Span → α → β → γ → δ → ε} (hFirst : first.Shallow a)
    (hSecond : second.Shallow b) (hThird : third.Shallow c) (hFourth : fourth.Shallow d)
    (h : ∀ span x y z w,
      measure (make span x y z w) ≤ max 1 (max (a x) (max (b y) (max (c z) (d w))))) :
    (fourfoldSchema first second third fourth make).Shallow measure :=
  ⟨_, .cons shallow_span <| .cons hFirst <| .cons hSecond <| .cons hThird <| .cons hFourth .nil,
    fun ⟨span, x, y, z, w, _⟩ => by
      simpa [fourfoldSchema, Json.Values.deepest] using h span x y z w⟩

end Nodes

namespace Phrase

variable {c : Category}

/-- How deep a phrase is where it stands in its node: an optional part stands for itself, and all
other phrases are in an array or object of their own. -/
def level : {c : Category} → Phrase c → Nat
  | .option _, p => p.encode.depth
  | _, p => p.document.depth

end Phrase

namespace PhraseDecoder

/-- Decoders whose phrases are written at most one level deeper than they were read. -/
def IsShallow (decode : PhraseDecoder) : Prop :=
  ∀ c : Category, c.item.isNode → Shallow Phrase.level (decode c)

variable {decode : PhraseDecoder} (h : decode.IsShallow)

include h in
/-- A node is written in an object of its own. -/
theorem IsShallow.document {c : Category} (hNode : c.isNode) :
    Shallow (fun p => p.document.depth) (decode c) := by
  cases c with
  | list d => cases hNode
  | option d => cases hNode
  | _ => exact h _ rfl

section Parts

variable {name : String} {c : Category}
include h

/-- A part that must be present is as shallow as its decoder. -/
theorem shallow_part (hNode : c.item.isNode) : (decode.part name c).Shallow Phrase.level :=
  shallow_required (h c hNode)

theorem shallow_optionalPart (hNode : c.isNode) :
    (decode.optionalPart name c).Shallow Phrase.level :=
  shallow_defaulted (h (.option c) hNode) (Nat.zero_le 1)

/-- A list is shallow if its elements are. -/
theorem shallow_parts (hNode : c.isNode) : (decode.parts name c).Shallow Phrase.level :=
  shallow_defaulted (h (.list c) hNode) (Nat.le_refl 1)

end Parts

include h

attribute [local simp] Phrase.encode Phrase.level Phrase.document Json.depth

theorem shallow_block : decode.block.Shallow fun p => p.encode.depth :=
  shallow_partSchema (shallow_parts h rfl) fun span p => by simp

theorem shallow_variableDecl : decode.variableDecl.Shallow fun p => p.encode.depth :=
  shallow_tripleSchema shallow_keywords shallow_optionalType (shallow_part h rfl)
    fun span keywords type p => by simp

theorem shallow_functionDecl : decode.functionDecl.Shallow fun p => p.encode.depth :=
  shallow_fourfoldSchema shallow_name shallow_optionalType (shallow_parts h rfl)
    (shallow_part h rfl) fun span name type params p => by simp

theorem shallow_closure : decode.closure.Shallow fun p => p.encode.depth :=
  shallow_pairSchema (shallow_parts h rfl) (shallow_part h rfl) fun span params p => by simp

theorem shallow_call : decode.call.Shallow fun p => p.encode.depth :=
  ⟨_, .cons shallow_span <| .cons (shallow_optionalPart h rfl) <| .cons shallow_name <|
    .cons shallow_types <| .cons (shallow_parts h rfl) <| .cons shallow_flag <|
    .cons shallow_resolved .nil,
    fun ⟨span, target, method, types, args, nullAware, resolved, _⟩ => by
      simp [call, Json.Values.deepest]⟩

/-- Each expression is written no deeper than the members that it was read from. -/
theorem shallow_exprs : ∀ variant ∈ decode.exprs, variant.2.Shallow fun p => p.encode.depth := by
  simp only [exprs, List.forall_mem_cons]
  refine ⟨?_, ?_, ?_, ?_, ?_, ?_, ?_, ?_, ?_, ?_, ?_, ?_, ?_, ?_, ?_, ?_, ?_, ?_, ?_, ?_, ?_, ?_,
    ?_, ?_, List.forall_mem_nil _⟩
  · exact shallow_pairSchema (shallow_required Json.shallow_zero) shallow_resolved
      fun span name resolved => by simp
  · exact shallow_spanSchema fun span => by simp
  · exact shallow_partSchema shallow_literal fun span value => by simp [value.depth_encode]
  · exact shallow_partSchema (shallow_parts h rfl) fun span p => by simp
  · exact shallow_tripleSchema shallow_types shallow_flag (shallow_parts h rfl)
      fun span types isConst p => by simp
  · exact shallow_tripleSchema shallow_types shallow_flag (shallow_parts h rfl)
      fun span types isConst p => by simp
  · exact shallow_pairSchema (shallow_part h rfl) shallow_flag fun span p nullAware => by simp
  · exact shallow_tripleSchema (shallow_part h rfl) shallow_name shallow_flag
      fun span target name nullAware => by simp
  · exact shallow_pairSchema (shallow_part h rfl) (shallow_part h rfl)
      fun span target index => by simp
  · exact shallow_call h
  · exact shallow_fourfoldSchema shallow_type shallow_optionalName (shallow_parts h rfl)
      shallow_flag fun span type name args isConst => by simp
  · exact Json.Schema.Shallow.map (by simpa using shallow_closure h)
  · exact shallow_tripleSchema (shallow_defaulted Json.shallow_zero (Nat.zero_le 1))
      (shallow_part h rfl) (shallow_part h rfl) fun span operator target value => by simp
  · exact shallow_tripleSchema (shallow_required Json.shallow_zero) shallow_flag
      (shallow_part h rfl) fun span operator isBefore p => by simp
  · exact shallow_tripleSchema (shallow_part h rfl) (shallow_part h rfl)
      (shallow_part h rfl) fun span test consequent alternate => by simp
  · exact shallow_pairSchema (shallow_part h rfl) (shallow_parts h rfl)
      fun span discriminant cases => by simp
  · exact shallow_tripleSchema (shallow_required Json.shallow_zero) (shallow_part h rfl)
      (shallow_part h rfl) fun span operator left right => by simp
  · exact shallow_pairSchema (shallow_required Json.shallow_zero) (shallow_part h rfl)
      fun span operator p => by simp
  · exact shallow_partSchema (shallow_part h rfl) fun span p => by simp
  · exact shallow_partSchema (shallow_part h rfl) fun span p => by simp
  · exact shallow_pairSchema (shallow_part h rfl) (shallow_parts h rfl)
      fun span target sections => by simp
  · exact shallow_spanSchema fun span => by simp
  · exact shallow_tripleSchema (shallow_required Json.shallow_zero) (shallow_part h rfl)
      shallow_type fun span kind p type => by simp
  · exact shallow_partSchema (shallow_part h rfl) fun span p => by simp

/-- Each statement is written no deeper than the members that it was read from. -/
theorem shallow_stmts : ∀ variant ∈ decode.stmts, variant.2.Shallow fun p => p.encode.depth := by
  simp only [stmts, List.forall_mem_cons]
  refine ⟨?_, ?_, ?_, ?_, ?_, ?_, ?_, ?_, ?_, ?_, ?_, ?_, ?_, ?_, ?_, ?_, List.forall_mem_nil _⟩
  · exact Json.Schema.Shallow.map (by simpa using shallow_block h)
  · exact shallow_partSchema (shallow_part h rfl) fun span p => by simp
  · exact Json.Schema.Shallow.map (by simpa using shallow_variableDecl h)
  · exact shallow_tripleSchema shallow_keywords (shallow_part h rfl) (shallow_part h rfl)
      fun span keywords pattern init => by simp
  · exact Json.Schema.Shallow.map (by simpa using shallow_functionDecl h)
  · exact shallow_tripleSchema (shallow_part h rfl) (shallow_part h rfl)
      (shallow_optionalPart h rfl) fun span test consequent alternate => by simp
  · exact shallow_fourfoldSchema (shallow_optionalPart h rfl) (shallow_optionalPart h rfl)
      (shallow_parts h rfl) (shallow_part h rfl) fun span init test step inner => by simp
  · exact shallow_fourfoldSchema (shallow_part h rfl) (shallow_part h rfl) shallow_flag
      (shallow_part h rfl) fun span binding iterable isAwait inner => by simp
  · exact shallow_pairSchema (shallow_part h rfl) (shallow_part h rfl)
      fun span test inner => by simp
  · exact shallow_pairSchema (shallow_part h rfl) (shallow_part h rfl)
      fun span inner test => by simp
  · exact shallow_pairSchema (shallow_part h rfl) (shallow_parts h rfl)
      fun span discriminant cases => by simp
  · exact shallow_tripleSchema (shallow_part h rfl) (shallow_parts h rfl)
      (shallow_optionalPart h rfl) fun span inner handlers finalizer => by simp
  · exact shallow_partSchema (shallow_optionalPart h rfl) fun span p => by simp
  · exact shallow_partSchema shallow_optionalName fun span label => by simp
  · exact shallow_partSchema shallow_optionalName fun span label => by simp
  · exact shallow_spanSchema fun span => by simp

theorem shallow_patterns :
    ∀ variant ∈ decode.patterns, variant.2.Shallow fun p => p.encode.depth := by
  simp only [patterns, List.forall_mem_cons]
  refine ⟨?_, ?_, ?_, ?_, ?_, ?_, List.forall_mem_nil _⟩
  · exact shallow_pairSchema shallow_name shallow_optionalType fun span name type => by simp
  · exact shallow_pairSchema shallow_type (shallow_parts h rfl)
      fun span type fields => by simp
  · exact shallow_partSchema (shallow_parts h rfl) fun span fields => by simp
  · exact shallow_partSchema (shallow_parts h rfl) fun span elements => by simp
  · exact shallow_partSchema (shallow_part h rfl) fun span p => by simp
  · exact shallow_spanSchema fun span => by simp

theorem shallow_bodyKinds : ∀ case ∈ decode.bodyKinds, case.2.Shallow fun p => p.encode.depth := by
  simp only [bodyKinds, List.forall_mem_cons]
  refine ⟨?_, ?_, ?_, List.forall_mem_nil _⟩
  · exact Json.Shallow.map fun place reading p hDecode => by
      simpa using h .block rfl place reading p hDecode
  · exact Json.Shallow.map fun place reading p hDecode => by
      simpa using h .expr rfl place reading p hDecode
  · exact (by simp : (Phrase.noBody).encode.depth ≤ 1)

/-- One step of decoding is shallow if the decoders of the parts are. -/
theorem shallow_step : decode.step.IsShallow := by
  intro c hNode
  cases c with
  | expr => exact Json.shallow_tagged (shallow_exprs h)
  | stmt => exact Json.shallow_tagged (shallow_stmts h)
  | pattern => exact Json.shallow_tagged (shallow_patterns h)
  | block => exact (shallow_block h).decode
  | body =>
      have hSchema : decode.body.Shallow fun p => p.encode.depth :=
        shallow_pairSchema (shallow_defaulted Json.shallow_zero (Nat.zero_le 1))
          (shallow_part h rfl) fun span modifier kind => by simp
      exact hSchema.decode
  | bodyKind => exact Json.shallow_paired (shallow_bodyKinds h)
  | param =>
      have hSchema : decode.param.Shallow fun p => p.encode.depth :=
        shallow_fourfoldSchema shallow_name shallow_optionalType shallow_flag
          (shallow_optionalPart h rfl) fun span name type named default => by simp
      exact hSchema.decode
  | declarator =>
      have hSchema : decode.declarator.Shallow fun p => p.encode.depth :=
        shallow_pairSchema shallow_name (shallow_optionalPart h rfl)
          fun span name init => by simp
      exact hSchema.decode
  | argument =>
      have hSchema : decode.argument.Shallow fun p => p.encode.depth :=
        ⟨_, .cons shallow_optionalName <| .cons (shallow_part h rfl) .nil,
          by
            rintro ⟨label, value, -⟩
            simp [argument, Json.Values.deepest]⟩
      exact hSchema.decode
  | mapEntry =>
      have hSchema : decode.mapEntry.Shallow fun p => p.encode.depth :=
        ⟨_, .cons (shallow_part h rfl) <| .cons (shallow_optionalPart h rfl) .nil,
          by
            rintro ⟨key, value, -⟩
            simp [mapEntry, Json.Values.deepest]⟩
      exact hSchema.decode
  | patternField =>
      have hSchema : decode.patternField.Shallow fun p => p.encode.depth :=
        ⟨_, .cons shallow_optionalName <| .cons (shallow_part h rfl) .nil,
          by
            rintro ⟨label, pattern, -⟩
            simp [patternField, Json.Values.deepest]⟩
      exact hSchema.decode
  | switchCase =>
      have hSchema : decode.switchCase.Shallow fun p => p.encode.depth :=
        shallow_tripleSchema (shallow_optionalPart h rfl) (shallow_optionalPart h rfl)
          (shallow_parts h rfl) fun span pattern guard inner => by simp
      exact hSchema.decode
  | switchExprCase =>
      have hSchema : decode.switchExprCase.Shallow fun p => p.encode.depth :=
        shallow_tripleSchema (shallow_part h rfl) (shallow_optionalPart h rfl)
          (shallow_part h rfl) fun span pattern guard inner => by simp
      exact hSchema.decode
  | catchClause =>
      have hSchema : decode.catchClause.Shallow fun p => p.encode.depth :=
        shallow_tripleSchema shallow_optionalType shallow_optionalName (shallow_part h rfl)
          fun span type param inner => by simp
      exact hSchema.decode
  | variableDecl => exact (shallow_variableDecl h).decode
  | functionDecl => exact (shallow_functionDecl h).decode
  | closure => exact (shallow_closure h).decode
  | list c =>
      have hItem : Shallow (fun p => p.document.depth) (decode c) := h.document hNode
      refine Json.Shallow.map fun place reading ps hDecode => ?_
      change (Phrase.ofList ps).document.depth ≤ _
      rw [Phrase.document_list, Phrase.toList_ofList, depth_list_map]
      exact hItem.list place reading ps hDecode
  | option c =>
      have hItem : Shallow (fun p => p.document.depth) (decode c) := h.document hNode
      refine Json.Shallow.map fun place reading p hDecode => ?_
      have hDepth := hItem.nullable place reading p hDecode
      cases p with
      | none => exact Nat.zero_le _
      | some p => simpa [Phrase.ofOption, Phrase.document] using hDepth

omit h in
/-- However much fuel there is, a phrase is written at most one level deeper than it was read from.
-/
theorem shallow_nested (fuel : Nat) : (nested fuel).IsShallow := by
  induction fuel with
  | zero => exact fun _ _ _ _ _ hDecode => by cases hDecode
  | succ fuel ih => exact shallow_step ih

omit h in
theorem shallow_decode : IsShallow Phrase.decode := fun c hNode place =>
  shallow_nested (2 * place.room + 2) c hNode place

end PhraseDecoder

open PhraseDecoder (shallow_decode shallow_part shallow_parts)

attribute [local simp] Json.depth Phrase.level

theorem FieldDecl.shallow : FieldDecl.schema.Shallow fun f => f.encode.depth :=
  shallow_tripleSchema shallow_keywords shallow_optionalType
    (shallow_required (shallow_decode (.list .declarator) rfl))
    fun span keywords type p => by simp [encode]

theorem MethodDecl.shallow : MethodDecl.schema.Shallow fun m => m.encode.depth :=
  ⟨_, .cons shallow_span <| .cons shallow_name <|
    .cons (shallow_defaulted Json.shallow_zero (Nat.zero_le 1)) <| .cons shallow_keywords <|
    .cons shallow_optionalType <| .cons (shallow_parts shallow_decode rfl) <|
    .cons (shallow_part shallow_decode rfl) .nil,
    fun ⟨span, name, kind, keywords, type, params, p, _⟩ => by
      simp [schema, encode, Json.Values.deepest]⟩

theorem ConstructorDecl.shallow : ConstructorDecl.schema.Shallow fun k => k.encode.depth :=
  ⟨_, .cons shallow_span <| .cons shallow_optionalName <| .cons shallow_flag <|
    .cons (shallow_parts shallow_decode rfl) <| .cons (shallow_parts shallow_decode rfl) <|
    .cons (shallow_part shallow_decode rfl) .nil,
    fun ⟨span, name, isConst, params, initializers, p, _⟩ => by
      simp [schema, encode, Json.Values.deepest]⟩

theorem Member.shallow : Shallow (fun m => m.encode.depth) Member.decode := by
  have hVariants : ∀ variant ∈ [("Field", FieldDecl.schema.map Member.field),
      ("Method", MethodDecl.schema.map .method),
      ("Constructor", ConstructorDecl.schema.map .constructor)],
      variant.2.Shallow fun m => m.encode.depth - 1 := by
    simp only [List.forall_mem_cons]
    refine ⟨?_, ?_, ?_, List.forall_mem_nil _⟩
    · exact Schema.Shallow.map (by simpa [encode] using FieldDecl.shallow)
    · exact Schema.Shallow.map (by simpa [encode] using MethodDecl.shallow)
    · exact Schema.Shallow.map (by simpa [encode] using ConstructorDecl.shallow)
  intro place reading m hDecode
  have hDepth := Json.shallow_tagged hVariants place reading m hDecode
  cases m <;> simpa [encode] using hDepth

theorem ClassDecl.shallow : ClassDecl.schema.Shallow fun c => c.encode.depth :=
  shallow_fourfoldSchema shallow_name shallow_optionalType shallow_flag
    (shallow_defaulted Member.shallow.list (Nat.le_refl 1))
    fun span name superclass isAbstract members => by simp [encode]

theorem Declaration.shallow : Shallow (fun d => d.encode.depth) Declaration.decode := by
  have hVariants : ∀ variant ∈ [("Class", ClassDecl.schema.map Declaration.class),
      ("Function", (PhraseDecoder.functionDecl Phrase.decode).map .function),
      ("Variable", (PhraseDecoder.variableDecl Phrase.decode).map .variable)],
      variant.2.Shallow fun d => d.encode.depth - 1 := by
    simp only [List.forall_mem_cons]
    refine ⟨?_, ?_, ?_, List.forall_mem_nil _⟩
    · exact Schema.Shallow.map (by simpa [encode] using ClassDecl.shallow)
    · exact Schema.Shallow.map <| by
        simpa [encode] using PhraseDecoder.shallow_functionDecl shallow_decode
    · exact Schema.Shallow.map <| by
        simpa [encode] using PhraseDecoder.shallow_variableDecl shallow_decode
  intro place reading d hDecode
  have hDepth := Json.shallow_tagged hVariants place reading d hDecode
  cases d <;> simpa [encode] using hDepth

namespace CompilationUnit

variable {t : String} {u : CompilationUnit}

/-- A unit is written at most one level deeper than the tree that it was read from. -/
theorem shallow_decode : Shallow (fun u => u.encode.depth) decode := by
  have hDecode : Shallow (fun u => u.encode.depth - 1 + 1) decode := by
    refine Schema.Shallow.decode ⟨_, .cons (shallow_required Json.shallow_zero) <|
      .cons (shallow_optional Json.shallow_zero) <|
      .cons (shallow_defaulted Declaration.shallow.list (Nat.le_refl 1)) .nil, ?_⟩
    rintro ⟨path, source, declarations, _⟩
    cases source <;> simp [encode, optionally, Json.Values.deepest]
  intro place reading u hUnit
  have hPositive : 0 < u.encode.depth := by simp [encode]
  have hDepth : u.encode.depth - 1 + 1 ≤ reading.depth + 1 := hDecode place reading u hUnit
  change u.encode.depth ≤ reading.depth + 1
  omega

/-- A text is a unit if it decodes as one with nothing behind it. -/
theorem decode_of_ofText (h : ofText t = .ok u) :
    decode ⟨Json.maxDepth, false⟩ (Json.read t).1 = .ok u ∧ (Json.read t).2 = false := by
  unfold ofText Decoder.run at h
  simp only at h
  split at h
  · cases h
  · next hDecode =>
      split at h
      · cases h
      · next hTrailing =>
          cases h
          exact ⟨hDecode, Bool.eq_false_iff.mpr hTrailing⟩

theorem ofText_of_decode (h : decode ⟨Json.maxDepth, false⟩ (Json.read t).1 = .ok u)
    (hTrailing : (Json.read t).2 = false) : ofText t = .ok u := by
  unfold ofText Decoder.run
  simp [h, hTrailing]

/-- A unit within the levels reads back from its text. -/
theorem ofText_text_of_fits (hDoubles : u.doubles = []) (hDepth : u.encode.depth ≤ Json.maxDepth) :
    ofText u.text = .ok u := by
  have hReads := reads (Json.maxDepth + 1) hDoubles
  have hDecode := hReads.decode ⟨Json.maxDepth, false⟩ (Nat.lt_succ_self _)
  have hText : Json.read u.text = (u.encode.asRead, false) := Json.read_pretty hReads.exact
  rw [Json.fitting_of_le hDepth] at hDecode
  exact ofText_of_decode (by rwa [hText]) (by rw [hText])

/-- Writing what was read is stable. Whatever text a unit was read from, its own text nests at
most one level deeper. So if at most 126 arrays and objects are open at once in the first text,
and there is no double in it, the unit is read back from its own text, and then written as that
text again. -/
theorem reencode (hText : ofText t = .ok u) :
    Json.nesting u.text ≤ Json.nesting t + 1 ∧
      (Json.nesting t ≤ 126 → u.doubles = [] →
        ofText u.text = .ok u ∧ (ofText u.text).map text = .ok u.text) := by
  have hRead := (decode_of_ofText hText).1
  have hWritten : u.encode.depth ≤ Json.nesting t + 1 :=
    calc u.encode.depth
      _ ≤ (Json.read t).1.depth + 1 := shallow_decode _ _ _ hRead
      _ ≤ Json.nesting t + 1 := Nat.succ_le_succ (Json.depth_read_le t)
  rw [nesting_text_eq]
  refine ⟨hWritten, fun hFits hDoubles => ?_⟩
  have hBack : ofText u.text = .ok u :=
    ofText_text_of_fits hDoubles (Nat.le_trans hWritten (Nat.succ_le_succ hFits))
  exact ⟨hBack, by rw [hBack]; rfl⟩

/-- A class without members, with a name that says nothing about where it stands. -/
def bareClass : CompilationUnit where
  path := "a"
  declarations := [.class ⟨⟨0, 9⟩, ⟨"A", .zero⟩, none, false, []⟩]

/-- The class as arrays, with everything left out that can be. -/
def bareText : String :=
  "\x7b\"path\":\"a\",\"declarations\":[[\"Class\",[0,9],[\"A\"]]]\x7d"

/-- What is left out takes one more level when it is written. -/
theorem reencode_bareText :
    ofText bareText = .ok bareClass ∧ Json.nesting bareText ≤ 126 ∧ bareClass.doubles = [] ∧
      Json.nesting bareClass.text = Json.nesting bareText + 1 ∧
      Json.nesting bareClass.text ≤ Json.nesting bareText + 1 ∧
      ofText bareClass.text = .ok bareClass ∧
      (ofText bareClass.text).map text = .ok bareClass.text := by
  have hText : ofText bareText = .ok bareClass := rfl
  have hFits : Json.nesting bareText ≤ 126 := by decide +kernel
  have hDoubles : bareClass.doubles = [] := by decide
  have hDeeper : Json.nesting bareClass.text = Json.nesting bareText + 1 := by
    rw [nesting_text_eq]
    decide +kernel
  obtain ⟨hDepth, hBack⟩ := reencode hText
  exact ⟨hText, hFits, hDoubles, hDeeper, hDepth, hBack hFits hDoubles⟩

end CompilationUnit

end SetupLint
