import Mathlib.Order.Monotone.Basic
import SetupLint.Proofs.PhraseDecoding
import SetupLint.Proofs.VariantMatch

/-! Phrases that are read the same. One step of decoding matches another if the decoders of the
parts do. Every step into a node opens an array or object, so fuel for two steps at each of them is
enough, and more fuel changes nothing. In this way the decoder of a whole tree matches the step
that is given this decoder itself, and matches itself where members have been swapped. -/
namespace SetupLint

open Json (Decoder Matches NamedMatch RecordField Schema)

variable {bound : Nat} {always : Prop}

namespace Json

/-- Less room can be used up. -/
theorem Matches.pred {α : Type} {decoder decoder' : Decoder α}
    (h : Matches (bound + 1) always decoder decoder') : Matches bound always decoder decoder' :=
  h.mono (Nat.le_succ bound) id

theorem matches_uint32 : Matches bound always Decode.uint32 Decode.uint32 := matches_int.map _

theorem matches_int64 : Matches bound always Decode.int64 Decode.int64 := matches_int.map _

end Json

section Fields

variable {α : Type} {decode decode' : Decoder α} {name : String}

/-- A field that must be present matches if its decoders do. -/
theorem matches_required (h : Matches bound always decode decode') :
    (required name decode).Matches bound always (required name decode') := ⟨rfl, rfl, h⟩

theorem matches_defaulted (h : Matches bound always decode decode') (value : α) :
    (defaulted name decode value).Matches bound always (defaulted name decode' value) :=
  ⟨rfl, rfl, h⟩

/-- A field that may be absent matches if its decoders do. -/
theorem matches_optional (h : Matches bound always decode decode') :
    (optional name decode).Matches bound always (optional name decode') := ⟨rfl, rfl, h.nullable⟩

theorem matches_flag : (flag name).Matches bound always (flag name) :=
  matches_defaulted Json.matches_bool false

/-! The parts of a node. -/

theorem Span.matches_decode : Matches bound always Span.schema.decode Span.schema.decode := by
  have hSchema : Span.schema.Matches bound always Span.schema :=
    .mk _ <| .cons (matches_required Json.matches_uint32) <|
      .cons (matches_required Json.matches_uint32) .nil
  exact hSchema.decode.pred

theorem matches_span : spanField.Matches bound always spanField :=
  matches_required Span.matches_decode

theorem Name.matches_decode : Matches bound always Name.schema.decode Name.schema.decode := by
  have hSchema : Name.schema.Matches bound always Name.schema :=
    .mk _ <| .cons (matches_required Json.matches_text) <|
      .cons (matches_defaulted Span.matches_decode .zero) .nil
  exact hSchema.decode.pred

theorem matches_name : (nameField name).Matches bound always (nameField name) :=
  matches_required Name.matches_decode

theorem matches_optionalName : (optionalName name).Matches bound always (optionalName name) :=
  matches_optional Name.matches_decode

theorem Keyword.matches_decode :
    Matches bound always Keyword.schema.decode Keyword.schema.decode := by
  have hSchema : Keyword.schema.Matches bound always Keyword.schema :=
    .mk _ <| .cons (matches_required Json.matches_word) <|
      .cons (matches_defaulted Span.matches_decode .zero) .nil
  exact hSchema.decode.pred

theorem matches_keywords : keywordsField.Matches bound always keywordsField :=
  matches_defaulted Keyword.matches_decode.list.pred []

theorem Resolution.matches_decode :
    Matches bound always Resolution.schema.decode Resolution.schema.decode := by
  have hSchema : Resolution.schema.Matches bound always Resolution.schema :=
    .mk _ <| .cons (matches_required Json.matches_word) <|
      .cons (matches_optional Json.matches_text) <| .cons matches_flag .nil
  exact hSchema.decode.pred

theorem matches_resolved : resolvedField.Matches bound always resolvedField :=
  matches_optional Resolution.matches_decode

/-- The kind of a literal stands beside its content, so the two may change places in a held tree
only. -/
theorem LiteralValue.matches_decode :
    Matches bound False LiteralValue.decode LiteralValue.decode := by
  have hCases : NamedMatch (Json.Case.Matches bound False) cases cases :=
    .cons ⟨rfl, .bare null⟩ <| .cons ⟨rfl, .holding (Json.matches_bool.map _)⟩ <|
      .cons ⟨rfl, .holding (Json.matches_int64.map _)⟩ <|
      .cons ⟨rfl, .holding (Json.matches_double.map _)⟩ <|
      .cons ⟨rfl, .holding (Json.matches_text.map _)⟩ <|
      .cons ⟨rfl, .holding (Json.matches_text.map _)⟩ .nil
  exact (Json.matches_paired hCases).pred

end Fields

/-! Fuel for nested values. -/

/-- A decoder that takes as much fuel as it needs for the room that there is. -/
def Json.fueled {α : Type} (need : Nat → Nat) (nested : Nat → Decoder α) : Decoder α :=
  fun place => nested (need (place.room + 1)) place

section Fuel

variable {α : Type} {need : Nat → Nat} {nested : Nat → Decoder α} (hNeed : Monotone need)
  (h : ∀ bound fuel fuel', need bound ≤ fuel → need bound ≤ fuel' →
    Matches bound always (nested fuel) (nested fuel'))
include h

theorem Json.matches_fueled : Matches bound always (fueled need nested) (fueled need nested) :=
  fun place _ => h (place.room + 1) _ _ (Nat.le_refl _) (Nat.le_refl _) place
    (Nat.lt_succ_self place.room)

include hNeed

/-- Fuel that is enough for the room reads what the fitting fuel reads. -/
theorem Json.matches_fueled_left {fuel : Nat} (hFuel : need bound ≤ fuel) :
    Matches bound always (nested fuel) (fueled need nested) :=
  fun place hRoom => h (place.room + 1) _ _ (Nat.le_trans (hNeed hRoom) hFuel) (Nat.le_refl _) place
    (Nat.lt_succ_self place.room)

theorem Json.matches_fueled_right {fuel : Nat} (hFuel : need bound ≤ fuel) :
    Matches bound always (fueled need nested) (nested fuel) :=
  fun place hRoom => h (place.room + 1) _ _ (Nat.le_refl _) (Nat.le_trans (hNeed hRoom) hFuel) place
    (Nat.lt_succ_self place.room)

end Fuel

namespace TypeRef

/-- Types match if their arguments do. -/
theorem matches_schema {args args' : Decoder (List TypeRef)} (h : Matches bound always args args') :
    (schema args).Matches bound always (schema args') :=
  .mk _ <| .cons (matches_defaulted Span.matches_decode .zero) <|
    .cons (matches_required Json.matches_text) <| .cons (matches_defaulted h []) <|
    .cons matches_flag .nil

/-- With enough fuel for the room, more of it changes nothing. -/
theorem matches_decodeNested (bound fuel fuel' : Nat) (hFuel : bound ≤ fuel)
    (hFuel' : bound ≤ fuel') : Matches bound always (decodeNested fuel) (decodeNested fuel') := by
  induction bound generalizing fuel fuel' with
  | zero => exact fun _ hRoom => absurd hRoom (Nat.not_lt_zero _)
  | succ bound ih =>
      cases fuel with
      | zero => omega
      | succ fuel =>
          cases fuel' with
          | zero => omega
          | succ fuel' =>
              have hArgs := ih _ _ (Nat.le_of_succ_le_succ hFuel) (Nat.le_of_succ_le_succ hFuel')
              exact (matches_schema hArgs.list.pred).decode

/-- A type is decoded alike from members in another order. -/
theorem matches_decode : Matches bound always decode decode :=
  Json.matches_fueled matches_decodeNested

/-- The decoder of types is the step that it takes into the arguments of a type. -/
theorem decode_iff_step {place : Json.Place} {reading : Json.Reading} {t : TypeRef} :
    decode place reading = .ok t ↔
      (schema (Json.Decode.list decode)).decode place reading = .ok t := by
  have hLeft : Matches place.room True (decodeNested place.room) decode :=
    Json.matches_fueled_left monotone_id matches_decodeNested (Nat.le_refl _)
  have hRight : Matches place.room True decode (decodeNested place.room) :=
    Json.matches_fueled_right monotone_id matches_decodeNested (Nat.le_refl _)
  exact ⟨(matches_schema hLeft.list.pred).decode place (Nat.lt_succ_self _) _ _ (.refl reading) t,
    (matches_schema hRight.list.pred).decode place (Nat.lt_succ_self _) _ _ (.refl reading) t⟩

end TypeRef

section Fields

variable {name : String}

theorem matches_optionalType : (optionalType name).Matches bound always (optionalType name) :=
  matches_optional TypeRef.matches_decode

theorem matches_types : (typesField name).Matches bound always (typesField name) :=
  matches_defaulted TypeRef.matches_decode.list.pred []

end Fields

section Nodes

variable {α β γ δ ε : Type} {first first' : RecordField α} {second second' : RecordField β}
  {third third' : RecordField γ} {fourth fourth' : RecordField δ}

/-- Nodes with nothing but a span match. -/
theorem matches_spanSchema {make : Span → ε} :
    (spanSchema make).Matches bound always (spanSchema make) := .mk _ <| .cons matches_span .nil

/-- Nodes with one part match if the part does. -/
theorem matches_partSchema {make : Span → α → ε} (h : first.Matches bound always first') :
    (partSchema first make).Matches bound always (partSchema first' make) :=
  .mk _ <| .cons matches_span <| .cons h .nil

theorem matches_pairSchema {make : Span → α → β → ε} (h : first.Matches bound always first')
    (hSecond : second.Matches bound always second') :
    (pairSchema first second make).Matches bound always (pairSchema first' second' make) :=
  .mk _ <| .cons matches_span <| .cons h <| .cons hSecond .nil

theorem matches_tripleSchema {make : Span → α → β → γ → ε} (h : first.Matches bound always first')
    (hSecond : second.Matches bound always second') (hThird : third.Matches bound always third') :
    (tripleSchema first second third make).Matches bound always
      (tripleSchema first' second' third' make) :=
  .mk _ <| .cons matches_span <| .cons h <| .cons hSecond <| .cons hThird .nil

theorem matches_fourfoldSchema {make : Span → α → β → γ → δ → ε}
    (h : first.Matches bound always first') (hSecond : second.Matches bound always second')
    (hThird : third.Matches bound always third') (hFourth : fourth.Matches bound always fourth') :
    (fourfoldSchema first second third fourth make).Matches bound always
      (fourfoldSchema first' second' third' fourth' make) :=
  .mk _ <| .cons matches_span <| .cons h <| .cons hSecond <| .cons hThird <| .cons hFourth .nil

end Nodes

namespace PhraseDecoder

/-- Decoders that match in all categories that stand in a node. Members may be swapped in held
trees only, because the kind of a body stands beside its content. -/
def Matches (bound : Nat) (decode decode' : PhraseDecoder) : Prop :=
  ∀ c : Category, c.item.isNode → Json.Matches bound False (decode c) (decode' c)

variable {decode decode' : PhraseDecoder} (h : decode.Matches bound decode')
include h

section Parts

variable {name : String} {c : Category}

/-- A part matches if the decoders of its category do. -/
theorem Matches.part (hNode : c.item.isNode) :
    (decode.part name c).Matches bound False (decode'.part name c) := matches_required (h c hNode)

theorem Matches.optionalPart (hNode : c.isNode) :
    (decode.optionalPart name c).Matches bound False (decode'.optionalPart name c) :=
  matches_defaulted (h (.option c) hNode) .none

theorem Matches.parts (hNode : c.isNode) :
    (decode.parts name c).Matches bound False (decode'.parts name c) :=
  matches_defaulted (h (.list c) hNode) .nil

end Parts

theorem Matches.block : decode.block.Matches bound False decode'.block :=
  matches_partSchema (h.parts rfl)

theorem Matches.variableDecl : decode.variableDecl.Matches bound False decode'.variableDecl :=
  matches_tripleSchema matches_keywords matches_optionalType (h.part rfl)

theorem Matches.functionDecl : decode.functionDecl.Matches bound False decode'.functionDecl :=
  matches_fourfoldSchema matches_name matches_optionalType (h.parts rfl) (h.part rfl)

theorem Matches.closure : decode.closure.Matches bound False decode'.closure :=
  matches_pairSchema (h.parts rfl) (h.part rfl)

theorem Matches.call : decode.call.Matches bound False decode'.call :=
  .mk _ <| .cons matches_span <| .cons (h.optionalPart rfl) <| .cons matches_name <|
    .cons matches_types <| .cons (h.parts rfl) <| .cons matches_flag <| .cons matches_resolved .nil

/-- Expressions match under the same tags. -/
theorem Matches.exprs : NamedMatch (Schema.Matches bound False) decode.exprs decode'.exprs := by
  simp only [PhraseDecoder.exprs, List.forall₂_cons, List.forall₂_nil_left_iff, true_and, and_true]
  refine ⟨?_, ?_, ?_, ?_, ?_, ?_, ?_, ?_, ?_, ?_, ?_, ?_, ?_, ?_, ?_, ?_, ?_, ?_, ?_, ?_, ?_, ?_,
    ?_, ?_⟩
  · exact matches_pairSchema (matches_required Json.matches_text) matches_resolved
  · exact matches_spanSchema
  · exact matches_partSchema (matches_required LiteralValue.matches_decode)
  · exact matches_partSchema (h.parts rfl)
  · exact matches_tripleSchema matches_types matches_flag (h.parts rfl)
  · exact matches_tripleSchema matches_types matches_flag (h.parts rfl)
  · exact matches_pairSchema (h.part rfl) matches_flag
  · exact matches_tripleSchema (h.part rfl) matches_name matches_flag
  · exact matches_pairSchema (h.part rfl) (h.part rfl)
  · exact h.call
  · exact matches_fourfoldSchema (matches_required TypeRef.matches_decode) matches_optionalName
      (h.parts rfl) matches_flag
  · exact h.closure.map _
  · exact matches_tripleSchema (matches_defaulted Json.matches_word _) (h.part rfl) (h.part rfl)
  · exact matches_tripleSchema (matches_required Json.matches_word) matches_flag (h.part rfl)
  · exact matches_tripleSchema (h.part rfl) (h.part rfl) (h.part rfl)
  · exact matches_pairSchema (h.part rfl) (h.parts rfl)
  · exact matches_tripleSchema (matches_required Json.matches_text) (h.part rfl) (h.part rfl)
  · exact matches_pairSchema (matches_required Json.matches_word) (h.part rfl)
  · exact matches_partSchema (h.part rfl)
  · exact matches_partSchema (h.part rfl)
  · exact matches_pairSchema (h.part rfl) (h.parts rfl)
  · exact matches_spanSchema
  · exact matches_tripleSchema (matches_required Json.matches_word) (h.part rfl)
      (matches_required TypeRef.matches_decode)
  · exact matches_partSchema (h.part rfl)

theorem Matches.stmts : NamedMatch (Schema.Matches bound False) decode.stmts decode'.stmts := by
  simp only [PhraseDecoder.stmts, List.forall₂_cons, List.forall₂_nil_left_iff, true_and, and_true]
  refine ⟨?_, ?_, ?_, ?_, ?_, ?_, ?_, ?_, ?_, ?_, ?_, ?_, ?_, ?_, ?_, ?_⟩
  · exact h.block.map _
  · exact matches_partSchema (h.part rfl)
  · exact h.variableDecl.map _
  · exact matches_tripleSchema matches_keywords (h.part rfl) (h.part rfl)
  · exact h.functionDecl.map _
  · exact matches_tripleSchema (h.part rfl) (h.part rfl) (h.optionalPart rfl)
  · exact matches_fourfoldSchema (h.optionalPart rfl) (h.optionalPart rfl) (h.parts rfl)
      (h.part rfl)
  · exact matches_fourfoldSchema (h.part rfl) (h.part rfl) matches_flag (h.part rfl)
  · exact matches_pairSchema (h.part rfl) (h.part rfl)
  · exact matches_pairSchema (h.part rfl) (h.part rfl)
  · exact matches_pairSchema (h.part rfl) (h.parts rfl)
  · exact matches_tripleSchema (h.part rfl) (h.parts rfl) (h.optionalPart rfl)
  · exact matches_partSchema (h.optionalPart rfl)
  · exact matches_partSchema matches_optionalName
  · exact matches_partSchema matches_optionalName
  · exact matches_spanSchema

theorem Matches.patterns :
    NamedMatch (Schema.Matches bound False) decode.patterns decode'.patterns := by
  simp only [PhraseDecoder.patterns, List.forall₂_cons, List.forall₂_nil_left_iff, true_and,
    and_true]
  refine ⟨?_, ?_, ?_, ?_, ?_, ?_⟩
  · exact matches_pairSchema matches_name matches_optionalType
  · exact matches_pairSchema (matches_required TypeRef.matches_decode) (h.parts rfl)
  · exact matches_partSchema (h.parts rfl)
  · exact matches_partSchema (h.parts rfl)
  · exact matches_partSchema (h.part rfl)
  · exact matches_spanSchema

/-- The kinds of a body match under the same names. -/
theorem Matches.bodyKinds :
    NamedMatch (Json.Case.Matches bound False) decode.bodyKinds decode'.bodyKinds :=
  .cons ⟨rfl, .holding ((h .block rfl).map _)⟩ <| .cons ⟨rfl, .holding ((h .expr rfl).map _)⟩ <|
    .cons ⟨rfl, .bare Phrase.noBody⟩ .nil

/-- A step into a node opens an array or object. -/
theorem Matches.step_node {c : Category} (hNode : c.isNode) :
    Json.Matches (bound + 1) False (decode.step c) (decode'.step c) := by
  cases c with
  | expr => exact Json.matches_tagged h.exprs
  | stmt => exact Json.matches_tagged h.stmts
  | pattern => exact Json.matches_tagged h.patterns
  | block => exact h.block.decode
  | body =>
      have hSchema : decode.body.Matches bound False decode'.body :=
        matches_pairSchema (matches_defaulted Json.matches_word _) (h.part rfl)
      exact hSchema.decode
  | bodyKind => exact Json.matches_paired h.bodyKinds
  | param =>
      have hSchema : decode.param.Matches bound False decode'.param :=
        matches_fourfoldSchema matches_name matches_optionalType matches_flag (h.optionalPart rfl)
      exact hSchema.decode
  | declarator =>
      have hSchema : decode.declarator.Matches bound False decode'.declarator :=
        matches_pairSchema matches_name (h.optionalPart rfl)
      exact hSchema.decode
  | argument =>
      have hSchema : decode.argument.Matches bound False decode'.argument :=
        .mk _ <| .cons matches_optionalName <| .cons (h.part rfl) .nil
      exact hSchema.decode
  | mapEntry =>
      have hSchema : decode.mapEntry.Matches bound False decode'.mapEntry :=
        .mk _ <| .cons (h.part rfl) <| .cons (h.optionalPart rfl) .nil
      exact hSchema.decode
  | patternField =>
      have hSchema : decode.patternField.Matches bound False decode'.patternField :=
        .mk _ <| .cons matches_optionalName <| .cons (h.part rfl) .nil
      exact hSchema.decode
  | switchCase =>
      have hSchema : decode.switchCase.Matches bound False decode'.switchCase :=
        matches_tripleSchema (h.optionalPart rfl) (h.optionalPart rfl) (h.parts rfl)
      exact hSchema.decode
  | switchExprCase =>
      have hSchema : decode.switchExprCase.Matches bound False decode'.switchExprCase :=
        matches_tripleSchema (h.part rfl) (h.optionalPart rfl) (h.part rfl)
      exact hSchema.decode
  | catchClause =>
      have hSchema : decode.catchClause.Matches bound False decode'.catchClause :=
        matches_tripleSchema matches_optionalType matches_optionalName (h.part rfl)
      exact hSchema.decode
  | variableDecl => exact h.variableDecl.decode
  | functionDecl => exact h.functionDecl.decode
  | closure => exact h.closure.decode
  | list c => cases hNode
  | option c => cases hNode

omit h

theorem isNode_item {c : Category} (hNode : c.isNode) : c.item.isNode := by
  cases c with
  | list c => cases hNode
  | option c => cases hNode
  | _ => rfl

/-- A list opens an array, and an optional part is read by the same step as the part itself. -/
theorem Matches.step (hItem : decode.Matches bound decode')
    (hNode : ∀ c : Category, c.isNode → Json.Matches (bound + 1) False (decode c) (decode' c)) :
    decode.step.Matches (bound + 1) decode'.step := by
  intro c hCategory
  cases c with
  | list c => exact (hItem c (isNode_item hCategory)).list.map _
  | option c => exact (hNode c hCategory).nullable.map _
  | _ => exact hItem.step_node rfl

/-- With fuel for two steps at every array or object, more of it changes nothing. -/
theorem matches_nested (bound fuel fuel' : Nat) (hFuel : 2 * bound ≤ fuel)
    (hFuel' : 2 * bound ≤ fuel') : (nested fuel).Matches bound (nested fuel') := by
  induction bound generalizing fuel fuel' with
  | zero => exact fun _ _ _ hRoom => absurd hRoom (Nat.not_lt_zero _)
  | succ bound ih =>
      obtain ⟨less, rfl⟩ : ∃ less, fuel = less + 2 := ⟨fuel - 2, by omega⟩
      obtain ⟨less', rfl⟩ : ∃ less', fuel' = less' + 2 := ⟨fuel' - 2, by omega⟩
      -- The second step is for an optional part, which opens nothing by itself.
      have hInside : (nested less).Matches bound (nested less') := ih _ _ (by omega) (by omega)
      have hOutside : (nested (less + 1)).Matches bound (nested (less' + 1)) :=
        ih _ _ (by omega) (by omega)
      exact hOutside.step fun c hNode => hInside.step_node hNode

/-- A phrase is decoded alike from members in another order. -/
theorem matches_decode : Matches bound Phrase.decode Phrase.decode := fun c hNode =>
  Json.matches_fueled fun bound fuel fuel' hFuel hFuel' =>
    matches_nested bound fuel fuel' hFuel hFuel' c hNode

/-- The decoder of a whole tree is the step that is given this decoder for the parts. -/
theorem decode_iff_step {c : Category} (hCategory : c.item.isNode) {place : Json.Place}
    {reading : Json.Reading} {p : Phrase c} :
    Phrase.decode c place reading = .ok p ↔ step Phrase.decode c place reading = .ok p := by
  have hMonotone : Monotone fun bound : Nat => 2 * bound := fun _ _ h => Nat.mul_le_mul_left 2 h
  let fuel := 2 * place.room + 1
  have hLeft : (nested fuel).Matches place.room Phrase.decode := fun c hCategory =>
    Json.matches_fueled_left hMonotone (matches_nested · · · · · c hCategory) (Nat.le_succ _)
  have hRight : Matches place.room Phrase.decode (nested fuel) := fun c hCategory =>
    Json.matches_fueled_right hMonotone (matches_nested · · · · · c hCategory) (Nat.le_succ _)
  -- A node needs less fuel than an optional part, because it takes one step only.
  have hLeftNode (c : Category) (hNode : c.isNode) :
      Json.Matches (place.room + 1) False (nested fuel c) (Phrase.decode c) := fun inside hRoom =>
    have hParts := matches_nested inside.room (2 * place.room) (2 * inside.room + 1)
    (hParts (by omega) (by omega)).step_node hNode inside (Nat.lt_succ_self _)
  have hRightNode (c : Category) (hNode : c.isNode) :
      Json.Matches (place.room + 1) False (Phrase.decode c) (nested fuel c) := fun inside hRoom =>
    have hParts := matches_nested inside.room (2 * inside.room + 1) (2 * place.room)
    (hParts (by omega) (by omega)).step_node hNode inside (Nat.lt_succ_self _)
  exact ⟨hLeft.step hLeftNode c hCategory place (Nat.lt_succ_self _) _ _ (.refl reading) p,
    hRight.step hRightNode c hCategory place (Nat.lt_succ_self _) _ _ (.refl reading) p⟩

end PhraseDecoder

/-! Declarations. -/

open PhraseDecoder (matches_decode)

theorem FieldDecl.matches_schema : FieldDecl.schema.Matches bound False FieldDecl.schema :=
  matches_tripleSchema matches_keywords matches_optionalType
    (matches_required (matches_decode _ rfl))

theorem MethodDecl.matches_schema : MethodDecl.schema.Matches bound False MethodDecl.schema :=
  .mk _ <| .cons matches_span <| .cons matches_name <|
    .cons (matches_defaulted Json.matches_word _) <| .cons matches_keywords <|
    .cons matches_optionalType <| .cons (matches_decode.parts rfl) <|
    .cons (matches_decode.part rfl) .nil

theorem ConstructorDecl.matches_schema :
    ConstructorDecl.schema.Matches bound False ConstructorDecl.schema :=
  .mk _ <| .cons matches_span <| .cons matches_optionalName <| .cons matches_flag <|
    .cons (matches_decode.parts rfl) <| .cons (matches_decode.parts rfl) <|
    .cons (matches_decode.part rfl) .nil

/-- A member of a class is decoded alike from members of its object in another order. -/
theorem Member.matches_decode : Matches (bound + 1) always Member.decode Member.decode :=
  Json.matches_tagged <| .cons ⟨rfl, FieldDecl.matches_schema.map _⟩ <|
    .cons ⟨rfl, MethodDecl.matches_schema.map _⟩ <|
    .cons ⟨rfl, ConstructorDecl.matches_schema.map _⟩ .nil

theorem ClassDecl.matches_schema : ClassDecl.schema.Matches bound False ClassDecl.schema :=
  matches_fourfoldSchema matches_name matches_optionalType matches_flag
    (matches_defaulted Member.matches_decode.pred.list.pred _)

theorem Declaration.matches_decode :
    Matches (bound + 1) always Declaration.decode Declaration.decode :=
  Json.matches_tagged <| .cons ⟨rfl, ClassDecl.matches_schema.map _⟩ <|
    .cons ⟨rfl, PhraseDecoder.matches_decode.functionDecl.map _⟩ <|
    .cons ⟨rfl, PhraseDecoder.matches_decode.variableDecl.map _⟩ .nil

/-- A unit is read the same in any order of its members. -/
theorem CompilationUnit.matches_decode :
    Matches bound True CompilationUnit.decode CompilationUnit.decode := by
  refine (Schema.Matches.mk _ <| .cons (matches_required Json.matches_text) <|
    .cons (matches_optional Json.matches_text) <|
    .cons (matches_defaulted Declaration.matches_decode.pred.list.pred []) .nil).decode.pred

end SetupLint
