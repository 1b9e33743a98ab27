import Mathlib.Data.List.Perm.Subperm
import SetupLint.Proofs.Roots
import SetupLint.Proofs.SetupPieces
import SetupLint.Proofs.Traversal
import SetupLint.Rule.Lifecycle

/-! Where the nodes of a unit stand: its declarations, the members of its classes, its phrases and
the types written in it. What a walk or a setup routine comes across is at different nodes each
time, so its spans are among those of the nodes, and none of them is taken twice. -/
namespace SetupLint

namespace TypeRef

mutual

/-- The spans of a type and of the types in it. -/
def spans : TypeRef → List Span
  | ⟨span, _, args, _⟩ => span :: spansAll args

def spansAll : List TypeRef → List Span
  | [] => []
  | type :: types => spans type ++ spansAll types

end

/-- A type has its own span among those in it. -/
theorem span_mem_spans (t : TypeRef) : t.span ∈ t.spans := by
  cases t
  exact List.mem_cons_self

theorem spansAll_eq (types : List TypeRef) : spansAll types = types.flatMap spans := by
  induction types with
  | nil => rfl
  | cons type types ih => rw [spansAll, ih, List.flatMap_cons]

end TypeRef

namespace Phrase

/-- The span of a phrase that is a node. Lists, optional parts, arguments, entries and the kinds of
a body have no span, and an expression or a statement that consists of a function, a block or a
declaration is the same node as this. -/
def ownSpan? : {c : Category} → Phrase c → Option Span
  | .list _, _ => none
  | .option _, _ => none
  | .bodyKind, _ => none
  | .argument, _ => none
  | .mapEntry, _ => none
  | .patternField, _ => none
  | .expr, .function _ => none
  | .stmt, .blockStmt _ => none
  | .stmt, .variableStmt _ => none
  | .stmt, .functionStmt _ => none
  | _, p => some p.span

/-- The types that are written in a phrase, apart from its parts. -/
def writtenTypes : {c : Category} → Phrase c → List TypeRef
  | _, .listLiteral _ typeArgs _ _ => typeArgs
  | _, .mapLiteral _ typeArgs _ _ => typeArgs
  | _, .call _ _ _ typeArgs _ _ _ => typeArgs
  | _, .create _ type _ _ _ => [type]
  | _, .typeTest _ _ _ type => [type]
  | _, .variablePattern _ _ type => type.toList
  | _, .objectPattern _ type _ => [type]
  | _, .param _ _ type _ _ => type.toList
  | _, .catchClause _ exceptionType _ _ => exceptionType.toList
  | _, .variableDecl _ _ type _ => type.toList
  | _, .functionDecl _ _ returnType _ _ => returnType.toList
  | _, _ => []

variable {c : Category}

/-- The spans of a phrase and of the types in it, without its parts. -/
def ownSpans (p : Phrase c) : List Span := p.ownSpan?.toList ++ TypeRef.spansAll p.writtenTypes

def spans (p : Phrase c) : List Span := p.nodes.flatMap fun node => node.phrase.ownSpans

end Phrase

def Member.spans : Member → List Span
  | .field f => f.span :: (TypeRef.spansAll f.type.toList ++ f.declared.spans)
  | .method m =>
    m.span :: (TypeRef.spansAll m.returnType.toList ++ (m.params.spans ++ m.body.spans))
  | .constructor k => k.span :: (k.params.spans ++ (k.initializers.spans ++ k.body.spans))

def ClassDecl.spans (c : ClassDecl) : List Span :=
  c.span :: (TypeRef.spansAll c.superclass.toList ++ c.members.flatMap Member.spans)

def Declaration.spans : Declaration → List Span
  | .class c => c.spans
  | .function f => f.spans
  | .variable v => v.spans

/-- The spans of the nodes of a unit. Names and keywords count as parts of their nodes. -/
def CompilationUnit.spans (u : CompilationUnit) : List Span :=
  u.declarations.flatMap Declaration.spans

theorem sublist_flatMap_of_mem {α β : Type} {l : List α} {f : α → List β} {a : α} (h : a ∈ l) :
    (f a).Sublist (l.flatMap f) := by
  rw [List.flatMap_def]
  exact List.sublist_flatten_of_mem (List.mem_map_of_mem h)

theorem subperm_flatMap {α β : Type} {l : List α} {f g : α → List β}
    (h : ∀ a ∈ l, (f a).Subperm (g a)) : (l.flatMap f).Subperm (l.flatMap g) := by
  induction l with
  | nil => exact List.Subperm.refl _
  | cons a l ih =>
      rw [List.forall_mem_cons] at h
      rw [List.flatMap_cons, List.flatMap_cons]
      exact h.1.append (ih h.2)

namespace Phrase

variable {c : Category}

/-- The spans of a phrase are its own ones and those of its parts, in this order. -/
theorem spans_eq (p : Phrase c) :
    p.spans = p.ownSpans ++ p.parts.flatMap fun part => part.phrase.spans := by
  rw [spans, nodes_eq, List.flatMap_cons, List.flatMap_assoc]
  rfl

/-- A phrase in a phrase has some of its nodes. -/
theorem spans_sublist_of_at? {p : Phrase c} {address : Address} {node : Node}
    (h : p.at? address = some node) : node.phrase.spans.Sublist p.spans := by
  induction address generalizing c p with
  | nil =>
      cases h
      exact List.Sublist.refl _
  | cons i address ih =>
      rw [at?_cons] at h
      obtain ⟨part, hPart, hInner⟩ := Option.bind_eq_some_iff.mp h
      rw [spans_eq p]
      apply (ih hInner).trans
      apply List.Sublist.trans _ (List.sublist_append_right _ _)
      exact sublist_flatMap_of_mem (f := fun part : Node => part.phrase.spans)
        (List.mem_of_getElem? hPart)

/-- A walk that gives spans of the phrase it is at gives spans of nodes, each at most once. -/
theorem map_walk_sublist_spans {γ α : Type} {w : Walk γ α} {f : α → Span}
    (hVisit : ∀ {c : Category} (p : Phrase c) (context : γ),
      ((w.visit p context).map f).Sublist p.ownSpans) (p : Phrase c) (context : γ) :
    ((p.walk w context).map f).Sublist p.spans := by
  induction p using induction_parts generalizing context with
  | step p ih =>
      rw [walk_eq, spans_eq, ← flatMap_zipIdx fun part : Node => part.phrase.spans,
        List.map_append, List.map_flatMap]
      apply (hVisit p context).append
      apply List.Sublist.flatMap_right
      rintro ⟨part, i⟩ hPart
      exact ih part (List.fst_mem_of_mem_zipIdx hPart) _

/-- The span of a node is among the spans in it. -/
theorem mem_spans_of_ownSpan? {p : Phrase c} {s : Span} (h : p.ownSpan? = some s) :
    s ∈ p.spans := by
  simp [spans_eq p, ownSpans, h]

/-- The spans of a part are among those of the phrase. -/
theorem mem_spans_of_mem_parts {p : Phrase c} {part : Node} (hPart : part ∈ p.parts) {s : Span}
    (h : s ∈ part.phrase.spans) : s ∈ p.spans := by
  rw [spans_eq p, List.mem_append, List.mem_flatMap]
  exact Or.inr ⟨part, hPart, h⟩

/-- A statement stands where it or the only part of it is a node. -/
theorem span_mem_spans (stmt : Stmt) : stmt.span ∈ stmt.spans := by
  have hInner {d : Category} {inner : Phrase d} (hParts : stmt.parts = [⟨inner⟩])
      (hSpan : inner.ownSpan? = some stmt.span) : stmt.span ∈ stmt.spans := by
    have hPart : (⟨inner⟩ : Node) ∈ stmt.parts := by
      simp [hParts]
    exact mem_spans_of_mem_parts hPart (mem_spans_of_ownSpan? hSpan)
  cases stmt with
  | blockStmt inner =>
      cases inner
      exact hInner rfl rfl
  | variableStmt decl =>
      cases decl
      exact hInner rfl rfl
  | functionStmt decl =>
      cases decl
      exact hInner rfl rfl
  | _ => exact mem_spans_of_ownSpan? rfl

theorem spans_cons (head : Phrase c) (tail : Phrase (.list c)) :
    (Phrase.cons head tail).spans = head.spans ++ tail.spans := by
  simp [spans_eq (Phrase.cons head tail), parts, ownSpans, ownSpan?, writtenTypes,
    TypeRef.spansAll]

/-- The statements of a list stand at different nodes. -/
theorem map_span_sublist_spans (statements : Phrase (.list .stmt)) :
    (statements.toList.map span).Sublist statements.spans := by
  induction statements using induction_list with
  | nil => exact List.nil_sublist _
  | cons head tail ih =>
      rw [spans_cons, toList_cons, List.map_cons]
      exact (List.singleton_sublist.mpr head.span_mem_spans).append ih

/-- What a visitor of a setup routine is told of the phrases in it, one after the other. -/
theorem map_fst_told (p : Phrase c) (way : Option Address) (scope : Scope) :
    (p.told way scope).map Prod.fst = p.nodes.filterMap fun node => node.phrase.occurrence? := by
  induction p using induction_parts generalizing way scope with
  | step p ih =>
      have hInner : ∀ part ∈ p.parts.zipIdx,
          (part.1.phrase.told (Address.onward? part.2 way) (p.innerScope way scope)).map Prod.fst =
            part.1.phrase.nodes.filterMap fun node => node.phrase.occurrence? :=
        fun part hPart => ih part.1 (List.fst_mem_of_mem_zipIdx hPart) _ _
      rw [told_eq, nodes_eq, ← flatMap_zipIdx fun part : Node => part.phrase.nodes,
        List.map_append, List.map_flatMap, List.flatMap_congr hInner, ← List.singleton_append,
        List.filterMap_append, List.filterMap_flatMap]
      cases hOccurrence : p.occurrence? <;> simp [hOccurrence]

/-- The variables that are declared at a phrase. -/
def declaredAt (p : Phrase c) : List Declarator := p.occurrence?.elim [] Resource.declared

/-- The spans of a variable, or of the variables of a list. -/
def variableSpans : {c : Category} → Phrase c → List Span
  | _, .declarator span _ _ => [span]
  | _, .cons head tail => head.variableSpans ++ tail.variableSpans
  | _, _ => []

theorem variableSpans_eq (declared : Phrase (.list .declarator)) :
    declared.variableSpans = declared.toList.map span := by
  induction declared using induction_list with
  | nil => rfl
  | cons head tail ih =>
      cases head
      rw [toList_cons, List.map_cons, ← ih]
      rfl

/-- The spans of the variables that are declared in a phrase. -/
def declaredSpans (p : Phrase c) : List Span :=
  p.nodes.flatMap fun node => node.phrase.declaredAt.map span

/-- The variables of a phrase are those declared at it and in its parts. -/
theorem declaredSpans_eq (p : Phrase c) :
    p.declaredSpans =
      p.declaredAt.map span ++ p.parts.flatMap fun part => part.phrase.declaredSpans := by
  rw [declaredSpans, nodes_eq, List.flatMap_cons, List.flatMap_assoc]
  rfl

/-- The variables that are declared in a phrase stand at different nodes. A declaration is told
before the declarations inside its initial values, so this is not the order of the nodes. -/
theorem declaredSpans_subperm_spans (p : Phrase c) :
    (p.variableSpans ++ p.declaredSpans).Subperm p.spans := by
  induction p using induction_parts with
  | step p ih =>
      have hParts : (p.parts.flatMap fun part => part.phrase.declaredSpans).Subperm
          (p.parts.flatMap fun part => part.phrase.spans) := by
        apply subperm_flatMap
        intro part hPart
        exact (List.sublist_append_right _ _).subperm.trans (ih part hPart)
      rw [declaredSpans_eq, spans_eq]
      cases p with
      | declarator at_ name init => exact (List.Subperm.refl _).append hParts
      | cons head tail =>
          have hHead := ih ⟨head⟩ (by simp [parts])
          have hTail := ih ⟨tail⟩ (by simp [parts])
          have hOrder : (head.variableSpans ++ tail.variableSpans ++
              (head.declaredSpans ++ tail.declaredSpans)).Perm
                (head.variableSpans ++ head.declaredSpans ++
                  (tail.variableSpans ++ tail.declaredSpans)) := by
            simp only [List.append_assoc]
            apply List.Perm.append_left
            rw [← List.append_assoc, ← List.append_assoc]
            exact List.perm_append_comm.append_right _
          rw [← spans_eq, spans_cons, parts, List.flatMap_cons, List.flatMap_cons,
            List.flatMap_nil, List.append_nil]
          exact hOrder.subperm.trans (hHead.append hTail)
      | variableDecl at_ keywords type declared =>
          have hDeclared := ih ⟨declared⟩ (by simp [parts])
          rw [variableSpans_eq] at hDeclared
          apply List.Subperm.trans _ (List.sublist_append_right _ _).subperm
          rw [parts, List.flatMap_cons, List.flatMap_cons, List.flatMap_nil, List.append_nil]
          rw [List.flatMap_nil, List.append_nil]
          exact hDeclared
      | _ => exact hParts.trans (List.sublist_append_right _ _).subperm

end Phrase

/-! ### Units -/

/-- The spans in the roots of a member are among those of the member. -/
theorem Member.roots_spans_sublist (m : Member) :
    (m.roots.flatMap fun root => root.phrase.spans).Sublist m.spans := by
  cases m with
  | field f => simp [roots, spans]
  | method m => simp [roots, spans]
  | constructor k => simp [roots, spans]

theorem Declaration.roots_spans_sublist (d : Declaration) :
    (d.roots.flatMap fun root => root.phrase.spans).Sublist d.spans := by
  cases d with
  | «class» c =>
      rw [roots, List.flatMap_assoc]
      apply List.Sublist.trans _ (List.sublist_cons_self _ _)
      apply List.Sublist.trans _ (List.sublist_append_right _ _)
      exact List.Sublist.flatMap_right _ fun m _ => m.roots_spans_sublist
  | function f => simp [roots, spans]
  | «variable» v => simp [roots, spans]

/-- A walk through a unit that gives spans of the phrase it is at gives spans of nodes, each at
most once. -/
theorem CompilationUnit.map_walk_sublist_spans {γ α : Type} {w : Walk γ α} {f : α → Span}
    (hVisit : ∀ {c : Category} (p : Phrase c) (context : γ),
      ((w.visit p context).map f).Sublist p.ownSpans) (u : CompilationUnit) (context : γ) :
    ((u.walk w context).map f).Sublist u.spans := by
  have hRoots : (u.roots.flatMap fun root => root.phrase.spans).Sublist u.spans := by
    rw [roots, List.flatMap_assoc]
    exact List.Sublist.flatMap_right _ fun d _ => d.roots_spans_sublist
  rw [walk_eq_roots, List.map_flatMap]
  apply List.Sublist.trans _ hRoots
  exact List.Sublist.flatMap_right _ fun root _ =>
    root.phrase.map_walk_sublist_spans hVisit context

end SetupLint
