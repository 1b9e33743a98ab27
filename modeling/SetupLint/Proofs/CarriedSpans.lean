import Mathlib.Algebra.Order.Group.Multiset
import SetupLint.Proofs.NodeSpans

/-! All the spans that a tree carries: those of its nodes, and those of the names and the keywords
in them. Where the order of the spans does not matter, they are a multiset, and what a phrase
carries is the sum of what it holds itself and what its parts carry. -/
namespace SetupLint

namespace Phrase

/-- The names that are written in a phrase, apart from its parts. -/
def writtenNames : {c : Category} → Phrase c → List Name
  | _, .property _ _ name _ => [name]
  | _, .call _ _ method _ _ _ _ => [method]
  | _, .create _ _ constructor _ _ => constructor.toList
  | _, .breakStmt _ label => label.toList
  | _, .continueStmt _ label => label.toList
  | _, .variablePattern _ name _ => [name]
  | _, .param _ name _ _ _ => [name]
  | _, .declarator _ name _ => [name]
  | _, .argument label _ => label.toList
  | _, .patternField label _ => label.toList
  | _, .catchClause _ _ caught _ => caught.toList
  | _, .functionDecl _ name _ _ _ => [name]
  | _, _ => []

def writtenKeywords : {c : Category} → Phrase c → List Keyword
  | _, .patternStmt _ keywords _ _ => keywords
  | _, .variableDecl _ keywords _ _ => keywords
  | _, _ => []

variable {c : Category}

/-- The spans that are written in a phrase, without its parts. -/
def heldSpans (p : Phrase c) : List Span :=
  p.ownSpans ++ (p.writtenNames.map Name.span ++ p.writtenKeywords.map Keyword.span)

/-- The spans that are written in a phrase. -/
def carriedSpans (p : Phrase c) : List Span := p.nodes.flatMap fun node => node.phrase.heldSpans

end Phrase

def Member.carriedSpans : Member → List Span
  | .field f =>
    f.span :: (f.keywords.map Keyword.span ++
      (TypeRef.spansAll f.type.toList ++ f.declared.carriedSpans))
  | .method m =>
    m.span :: m.name.span :: (m.keywords.map Keyword.span ++
      (TypeRef.spansAll m.returnType.toList ++ (m.params.carriedSpans ++ m.body.carriedSpans)))
  | .constructor k =>
    k.span :: ((k.name.map Name.span).toList ++
      (k.params.carriedSpans ++ (k.initializers.carriedSpans ++ k.body.carriedSpans)))

def ClassDecl.carriedSpans (c : ClassDecl) : List Span :=
  c.span :: c.name.span ::
    (TypeRef.spansAll c.superclass.toList ++ c.members.flatMap Member.carriedSpans)

def Declaration.carriedSpans : Declaration → List Span
  | .class c => c.carriedSpans
  | .function f => f.carriedSpans
  | .variable v => v.carriedSpans

/-- In no order, lists one behind another are a sum. -/
theorem coe_flatMap {α β : Type} (f : α → List β) (l : List α) :
    ((l.flatMap f : List β) : Multiset β) = (l.map fun a => (f a : Multiset β)).sum := by
  induction l with
  | nil => rfl
  | cons a l ih =>
      rw [List.flatMap_cons, ← Multiset.coe_add, ih, List.map_cons, List.sum_cons]

theorem coe_map {α β : Type} (f : α → β) (l : List α) :
    ((l.map f : List β) : Multiset β) = (l.map fun a => ({f a} : Multiset β)).sum := by
  rw [List.map_eq_flatMap, coe_flatMap]
  rfl

def Span.once (s : Span) : Multiset Span := {s}

theorem Span.coe_cons (s : Span) (l : List Span) :
    ((s :: l : List Span) : Multiset Span) = s.once + l := by
  rw [← Multiset.cons_coe, ← Multiset.singleton_add]
  rfl

def Name.carried (n : Name) : Multiset Span := n.span.once

def Keyword.carried (k : Keyword) : Multiset Span := k.span.once

namespace TypeRef

/-- The spans of a type, in no order. -/
def carried (t : TypeRef) : Multiset Span := t.spans

/-- The spans of some types are the sum of what each carries. -/
theorem coe_spansAll (types : List TypeRef) :
    (spansAll types : Multiset Span) = (types.map carried).sum := by
  rw [spansAll_eq, coe_flatMap]
  rfl

/-- A type carries its own span and what its arguments carry. -/
theorem carried_mk (span : Span) (name : String) (args : List TypeRef) (nullable : Bool) :
    carried ⟨span, name, args, nullable⟩ = span.once + (args.map carried).sum := by
  rw [carried, spans, Span.coe_cons, coe_spansAll]

end TypeRef

namespace Phrase

variable {c : Category}

def carried (p : Phrase c) : Multiset Span := p.carriedSpans

/-- What a phrase holds itself, in no order. -/
def held (p : Phrase c) : Multiset Span :=
  p.ownSpan?.elim 0 Span.once + (p.writtenTypes.map TypeRef.carried).sum +
    (p.writtenNames.map Name.carried).sum + (p.writtenKeywords.map Keyword.carried).sum

theorem coe_heldSpans (p : Phrase c) : (p.heldSpans : Multiset Span) = p.held := by
  have hOwn : (p.ownSpan?.toList : Multiset Span) = p.ownSpan?.elim 0 Span.once := by
    cases p.ownSpan? <;> rfl
  rw [heldSpans, ownSpans, ← Multiset.coe_add, ← Multiset.coe_add, ← Multiset.coe_add, hOwn,
    TypeRef.coe_spansAll, coe_map, coe_map, ← add_assoc]
  rfl

/-- A phrase carries what it holds itself and what its parts carry. -/
theorem carried_eq (p : Phrase c) :
    p.carried = p.held + (p.parts.map fun part => part.phrase.carried).sum := by
  rw [carried, carriedSpans, nodes_eq, List.flatMap_cons, List.flatMap_assoc, ← Multiset.coe_add,
    coe_flatMap, coe_heldSpans]
  rfl

theorem carried_nil : (Phrase.nil : Phrase (.list c)).carried = 0 := rfl

theorem carried_none : (Phrase.none : Phrase (.option c)).carried = 0 := rfl

/-- A list carries what its elements carry. -/
theorem carried_cons (head : Phrase c) (tail : Phrase (.list c)) :
    (Phrase.cons head tail).carried = head.carried + tail.carried := by
  simp [carried_eq (Phrase.cons head tail), held, ownSpan?, writtenTypes, writtenNames,
    writtenKeywords, parts]

theorem carried_some (value : Phrase c) : (Phrase.some value).carried = value.carried := by
  simp [carried_eq (Phrase.some value), held, ownSpan?, writtenTypes, writtenNames,
    writtenKeywords, parts]

/-- A list carries what its elements carry. -/
theorem carried_ofList (phrases : List (Phrase c)) :
    (ofList phrases).carried = (phrases.map carried).sum := by
  induction phrases with
  | nil => rfl
  | cons p phrases ih => rw [ofList, carried_cons, ih, List.map_cons, List.sum_cons]

/-- An optional part carries what it consists of. -/
theorem carried_ofOption (phrase : Option (Phrase c)) :
    (ofOption phrase).carried = (phrase.toList.map carried).sum := by
  cases phrase with
  | none => rfl
  | some p => exact (carried_some p).trans (add_zero _).symm

end Phrase

namespace Member

def carried (m : Member) : Multiset Span := m.carriedSpans

theorem carried_field (f : FieldDecl) :
    (field f).carried = f.span.once + ((f.keywords.map Keyword.carried).sum +
      ((f.type.toList.map TypeRef.carried).sum + f.declared.carried)) := by
  rw [carried, carriedSpans, Span.coe_cons, ← Multiset.coe_add, ← Multiset.coe_add, coe_map,
    TypeRef.coe_spansAll]
  rfl

theorem carried_method (m : MethodDecl) :
    (method m).carried = m.span.once + (m.name.carried + ((m.keywords.map Keyword.carried).sum +
      ((m.returnType.toList.map TypeRef.carried).sum + (m.params.carried + m.body.carried)))) := by
  rw [carried, carriedSpans, Span.coe_cons, Span.coe_cons, ← Multiset.coe_add, ← Multiset.coe_add,
    ← Multiset.coe_add, coe_map, TypeRef.coe_spansAll]
  rfl

end Member

namespace Declaration

def carried (d : Declaration) : Multiset Span := d.carriedSpans

/-- A class carries its own span and what its names and its members carry. -/
theorem carried_class (c : ClassDecl) :
    (Declaration.class c).carried = c.span.once + (c.name.carried +
      ((c.superclass.toList.map TypeRef.carried).sum + (c.members.map Member.carried).sum)) := by
  rw [carried, carriedSpans, ClassDecl.carriedSpans, Span.coe_cons, Span.coe_cons,
    ← Multiset.coe_add, TypeRef.coe_spansAll, coe_flatMap]
  rfl

theorem carried_function (f : FunctionDecl) : (function f).carried = Phrase.carried f := rfl

end Declaration

end SetupLint
