import SetupLint.Proofs.Part
import SetupLint.Proofs.Relocation
import SetupLint.Tree.View

/-! Trees that are changed where most rules do not look: offsets are moved, and parentheses and
what identifiers are resolved to may be dropped. What a phrase is at a glance changes with it, and
a walk that looks at none of this finds the same, moved. -/
namespace SetupLint

/-- A change of a tree. -/
structure TreeChange where
  /-- Where an offset goes. Different offsets may go to the same one. -/
  offset : UInt32 → UInt32
  dropsParens : Bool
  dropsResolutions : Bool

namespace TreeChange

variable (g : TreeChange)

abbrev span (s : Span) : Span := s.relocate g.offset

abbrev name (n : Name) : Name := n.relocate g.offset

abbrev type (t : TypeRef) : TypeRef := t.relocate g.offset

abbrev keyword (k : Keyword) : Keyword := k.relocate g.offset

/-- What an identifier is resolved to. -/
def resolved (r : Option Resolution) : Option Resolution :=
  bif g.dropsResolutions then none else r

end TreeChange

variable (g : TreeChange)

namespace Phrase

/-- A changed phrase. A call keeps what it is resolved to. -/
def change (g : TreeChange) : {c : Category} → Phrase c → Phrase c
  | _, .identifier span name resolved => .identifier (g.span span) name (g.resolved resolved)
  | _, .this span => .this (g.span span)
  | _, .literal span value => .literal (g.span span) value
  | _, .interpolation span expressions => .interpolation (g.span span) (expressions.change g)
  | _, .listLiteral span typeArgs isConst elements =>
    .listLiteral (g.span span) (typeArgs.map g.type) isConst (elements.change g)
  | _, .mapLiteral span typeArgs isConst entries =>
    .mapLiteral (g.span span) (typeArgs.map g.type) isConst (entries.change g)
  | _, .spread span operand nullAware => .spread (g.span span) (operand.change g) nullAware
  | _, .property span target name nullAware =>
    .property (g.span span) (target.change g) (g.name name) nullAware
  | _, .index span target position => .index (g.span span) (target.change g) (position.change g)
  | _, .call span target method typeArgs args nullAware resolved =>
    .call (g.span span) (target.change g) (g.name method) (typeArgs.map g.type) (args.change g)
      nullAware resolved
  | _, .create span type named args isConst =>
    .create (g.span span) (g.type type) (named.map g.name) (args.change g) isConst
  | _, .function fn => .function (fn.change g)
  | _, .assign span operator target value =>
    .assign (g.span span) operator (target.change g) (value.change g)
  | _, .update span operator isBefore operand =>
    .update (g.span span) operator isBefore (operand.change g)
  | _, .conditional span test consequent alternate =>
    .conditional (g.span span) (test.change g) (consequent.change g) (alternate.change g)
  | _, .switchExpr span discriminant cases =>
    .switchExpr (g.span span) (discriminant.change g) (cases.change g)
  | _, .binary span operator left right =>
    .binary (g.span span) operator (left.change g) (right.change g)
  | _, .unary span operator operand => .unary (g.span span) operator (operand.change g)
  | _, .await span operand => .await (g.span span) (operand.change g)
  | _, .paren span expression =>
    bif g.dropsParens then expression.change g else .paren (g.span span) (expression.change g)
  | _, .cascade span target sections =>
    .cascade (g.span span) (target.change g) (sections.change g)
  | _, .cascadeReceiver span => .cascadeReceiver (g.span span)
  | _, .typeTest span kind expression type =>
    .typeTest (g.span span) kind (expression.change g) (g.type type)
  | _, .throw span operand => .throw (g.span span) (operand.change g)
  | _, .blockStmt inner => .blockStmt (inner.change g)
  | _, .expressionStmt span expression => .expressionStmt (g.span span) (expression.change g)
  | _, .variableStmt decl => .variableStmt (decl.change g)
  | _, .patternStmt span keywords pattern init =>
    .patternStmt (g.span span) (keywords.map g.keyword) (pattern.change g) (init.change g)
  | _, .functionStmt decl => .functionStmt (decl.change g)
  | _, .ifStmt span test consequent alternate =>
    .ifStmt (g.span span) (test.change g) (consequent.change g) (alternate.change g)
  | _, .forStmt span init test step inner =>
    .forStmt (g.span span) (init.change g) (test.change g) (step.change g) (inner.change g)
  | _, .forInStmt span binding iterable isAwait inner =>
    .forInStmt (g.span span) (binding.change g) (iterable.change g) isAwait (inner.change g)
  | _, .whileStmt span test inner => .whileStmt (g.span span) (test.change g) (inner.change g)
  | _, .doWhileStmt span inner test => .doWhileStmt (g.span span) (inner.change g) (test.change g)
  | _, .switchStmt span discriminant cases =>
    .switchStmt (g.span span) (discriminant.change g) (cases.change g)
  | _, .tryStmt span inner handlers finalizer =>
    .tryStmt (g.span span) (inner.change g) (handlers.change g) (finalizer.change g)
  | _, .returnStmt span operand => .returnStmt (g.span span) (operand.change g)
  | _, .breakStmt span label => .breakStmt (g.span span) (label.map g.name)
  | _, .continueStmt span label => .continueStmt (g.span span) (label.map g.name)
  | _, .emptyStmt span => .emptyStmt (g.span span)
  | _, .variablePattern span name type =>
    .variablePattern (g.span span) (g.name name) (type.map g.type)
  | _, .objectPattern span type fields =>
    .objectPattern (g.span span) (g.type type) (fields.change g)
  | _, .recordPattern span fields => .recordPattern (g.span span) (fields.change g)
  | _, .listPattern span elements => .listPattern (g.span span) (elements.change g)
  | _, .constantPattern span expression => .constantPattern (g.span span) (expression.change g)
  | _, .wildcardPattern span => .wildcardPattern (g.span span)
  | _, .block span statements => .block (g.span span) (statements.change g)
  | _, .body span modifier kind => .body (g.span span) modifier (kind.change g)
  | _, .blockBody inner => .blockBody (inner.change g)
  | _, .exprBody expression => .exprBody (expression.change g)
  | _, .noBody => .noBody
  | _, .param span name type named default =>
    .param (g.span span) (g.name name) (type.map g.type) named (default.change g)
  | _, .declarator span name init => .declarator (g.span span) (g.name name) (init.change g)
  | _, .argument label value => .argument (label.map g.name) (value.change g)
  | _, .mapEntry key value => .mapEntry (key.change g) (value.change g)
  | _, .patternField label pattern => .patternField (label.map g.name) (pattern.change g)
  | _, .switchCase span pattern guard inner =>
    .switchCase (g.span span) (pattern.change g) (guard.change g) (inner.change g)
  | _, .switchExprCase span pattern guard inner =>
    .switchExprCase (g.span span) (pattern.change g) (guard.change g) (inner.change g)
  | _, .catchClause span exceptionType caught inner =>
    .catchClause (g.span span) (exceptionType.map g.type) (caught.map g.name) (inner.change g)
  | _, .variableDecl span keywords type declared =>
    .variableDecl (g.span span) (keywords.map g.keyword) (type.map g.type) (declared.change g)
  | _, .functionDecl span name returnType params inner =>
    .functionDecl (g.span span) (g.name name) (returnType.map g.type) (params.change g)
      (inner.change g)
  | _, .closure span params inner => .closure (g.span span) (params.change g) (inner.change g)
  | _, .nil => .nil
  | _, .cons head tail => .cons (head.change g) (tail.change g)
  | _, .none => .none
  | _, .some value => .some (value.change g)

def isParen : {c : Category} → Phrase c → Bool
  | _, .paren .. => true
  | _, _ => false

end Phrase

def Node.change (node : Node) : Node := ⟨node.phrase.change g⟩

def Identifier.change (i : Identifier) : Identifier :=
  ⟨g.span i.span, i.name, g.resolved i.resolved⟩

def Call.change (call : Call) : Call where
  span := g.span call.span
  target := call.target.map (Phrase.change g)
  method := g.name call.method
  typeArgs := call.typeArgs.map g.type
  args := call.args.map (Phrase.change g)
  nullAware := call.nullAware
  resolved := call.resolved

namespace Phrase

variable {c : Category}

/-- Induction over the parts of a phrase with a case for parentheses. -/
@[elab_as_elim]
theorem induction_open {motive : {c : Category} → Phrase c → Prop}
    (paren : ∀ (span : Span) (e : Expr), motive e → motive (.paren span e))
    (other : ∀ {c : Category} (p : Phrase c), p.isParen = false →
      (∀ part ∈ p.parts, motive part.phrase) → motive p)
    (p : Phrase c) : motive p := by
  induction p using induction_parts with
  | step p ih =>
      cases hParen : p.isParen with
      | false => exact other p hParen ih
      | true =>
          cases p <;> try cases hParen
          exact paren _ _ (ih ⟨_⟩ List.mem_cons_self)

/-- To what looks through parentheses it is the same whether they are dropped. -/
theorem apply_change_paren {α : Type} {f : Expr → α}
    (hParen : ∀ (span : Span) (e : Expr), f (.paren span e) = f e) (span : Span) (e : Expr) :
    f ((paren span e).change g) = f (e.change g) := by
  show f (bif g.dropsParens then e.change g else .paren (g.span span) (e.change g)) = _
  cases g.dropsParens with
  | false => exact hParen _ _
  | true => rfl

/-- The parts of a phrase are changed one by one. -/
theorem parts_change (p : Phrase c) (hParen : p.isParen = false) :
    (p.change g).parts = p.parts.map (Node.change g) := by
  cases p <;> first | rfl | cases hParen

theorem toList_change (l : Phrase (.list c)) : (l.change g).toList = l.toList.map (change g) := by
  induction l using induction_list with
  | nil => rfl
  | cons head tail ih => exact congrArg (head.change g :: ·) ih

theorem toOption_change (p : Phrase (.option c)) :
    (p.change g).toOption = p.toOption.map (change g) := by
  cases p <;> rfl

/-- What looks through parentheses is changed with an expression, if it is changed with all
expressions that do not start with parentheses. -/
theorem map_change {α : Type} {f : Expr → α} {k : α → α}
    (hParen : ∀ (span : Span) (e : Expr), f (.paren span e) = f e)
    (hOther : ∀ e : Expr, e.isParen = false → f (e.change g) = k (f e)) (e : Expr) :
    f (e.change g) = k (f e) := by
  induction e using induction_paren with
  | paren span e ih =>
      rw [apply_change_paren g hParen, hParen]
      exact ih
  | bare e hBare =>
      refine hOther e ?_
      cases hCase : e.isParen with
      | false => rfl
      | true =>
          cases e <;> try cases hCase
          exact absurd rfl (hBare _ _)

/-- An identifier shows through parentheses that are dropped. -/
theorem asIdentifier?_change (e : Expr) :
    (e.change g).asIdentifier? = e.asIdentifier?.map (Identifier.change g) := by
  refine map_change g (f := asIdentifier?) (k := Option.map (Identifier.change g))
    (fun _ _ => rfl) (fun e hParen => ?_) e
  cases e <;> first | rfl | cases hParen

/-- A function shows through parentheses that are dropped. -/
theorem asFunction?_change (e : Expr) :
    (e.change g).asFunction? = e.asFunction?.map (change g) := by
  refine map_change g (f := asFunction?) (k := Option.map (change g)) (fun _ _ => rfl)
    (fun e hParen => ?_) e
  cases e <;> first | rfl | cases hParen

theorem isThis_change (e : Expr) : (e.change g).isThis = e.isThis := by
  refine map_change g (f := isThis) (k := id) (fun _ _ => rfl) (fun e hParen => ?_) e
  cases e <;> first | rfl | cases hParen

/-- A call stays a call, of the same method. -/
theorem call?_change (p : Phrase c) (hParen : p.isParen = false) :
    (p.change g).call? = p.call?.map (Call.change g) := by
  cases p <;> try first | rfl | cases hParen
  case call span target method typeArgs args nullAware resolved =>
    exact congrArg₂ (fun target args => some (Call.mk (g.span span) target (g.name method)
        (typeArgs.map g.type) args nullAware resolved))
      (toOption_change g target) (toList_change g args)

theorem asCall?_change (e : Expr) : (e.change g).asCall? = e.asCall?.map (Call.change g) := by
  refine map_change g (f := asCall?) (k := Option.map (Call.change g)) (fun _ _ => rfl)
    (fun e hParen => ?_) e
  cases e <;> first | exact call?_change g _ rfl | cases hParen

theorem positional?_change (arg : Argument) :
    (arg.change g).positional? = arg.positional?.map (change g) := by
  cases arg with
  | argument label value => cases label <;> rfl

theorem isDestructuring_change (pattern : Pattern) :
    (pattern.change g).isDestructuring = pattern.isDestructuring := by
  cases pattern <;> rfl

/-- A statement returns what it returned. -/
theorem returned?_change (stmt : Stmt) :
    (stmt.change g).returned? = stmt.returned?.map (change g) := by
  cases stmt <;> try rfl
  case returnStmt span operand =>
    cases operand with
    | none => rfl
    | some operand => exact asFunction?_change g operand

/-- A statement stands where it is moved to, whatever else of it is changed. -/
theorem span_change (stmt : Stmt) : (stmt.change g).span = g.span stmt.span := by
  cases stmt <;> try rfl
  case blockStmt inner => cases inner; rfl
  case variableStmt decl => cases decl; rfl
  case functionStmt decl => cases decl; rfl

theorem statements_change (b : Block) :
    (b.change g).statements = b.statements.map (change g) := by
  cases b with
  | block span inner => exact toList_change g inner

theorem declaredName_change (d : Declarator) :
    (d.change g).declaredName = g.name d.declaredName := by
  cases d
  rfl

theorem declarators_change (decl : VariableDecl) :
    (decl.change g).declarators = decl.declarators.map (change g) := by
  cases decl with
  | variableDecl span keywords type declared => exact toList_change g declared

theorem isAsync_change (b : Body) : (b.change g).isAsync = b.isAsync := by
  cases b
  rfl

theorem block?_change (b : Body) : (b.change g).block? = b.block?.map (change g) := by
  cases b with
  | body span modifier kind => cases kind <;> rfl

theorem functionBody_change (closure : Closure) :
    (closure.change g).functionBody = closure.functionBody.change g := by
  cases closure
  rfl

end Phrase

namespace Call

theorem soleArgument?_change (call : Call) :
    (call.change g).soleArgument? = call.soleArgument?.map (Phrase.change g) := by
  obtain ⟨span, target, method, typeArgs, args, nullAware, resolved⟩ := call
  match args with
  | [] => rfl
  | [arg] => exact arg.positional?_change g
  | _ :: _ :: _ => rfl

theorem receiver?_change (call : Call) :
    (call.change g).receiver? = call.receiver?.map (Identifier.change g) := by
  obtain ⟨span, target, method, typeArgs, args, nullAware, resolved⟩ := call
  cases target with
  | none => rfl
  | some target => exact target.asIdentifier?_change g

/-- Calls keep their resolutions, so what is called at the top level stays there. -/
theorem isTopLevel_change (call : Call) : (call.change g).isTopLevel = call.isTopLevel := by
  obtain ⟨span, target, method, typeArgs, args, nullAware, resolved⟩ := call
  cases target <;> rfl

end Call

/-! Declarations that are changed. -/

def FieldDecl.change (f : FieldDecl) : FieldDecl where
  span := g.span f.span
  keywords := f.keywords.map g.keyword
  type := f.type.map g.type
  declared := f.declared.change g

def MethodDecl.change (m : MethodDecl) : MethodDecl where
  span := g.span m.span
  name := g.name m.name
  kind := m.kind
  keywords := m.keywords.map g.keyword
  returnType := m.returnType.map g.type
  params := m.params.change g
  body := m.body.change g

def ConstructorDecl.change (k : ConstructorDecl) : ConstructorDecl where
  span := g.span k.span
  name := k.name.map g.name
  isConst := k.isConst
  params := k.params.change g
  initializers := k.initializers.change g
  body := k.body.change g

def Member.change : Member → Member
  | .field f => .field (f.change g)
  | .method m => .method (m.change g)
  | .constructor k => .constructor (k.change g)

def ClassDecl.change (c : ClassDecl) : ClassDecl where
  span := g.span c.span
  name := g.name c.name
  superclass := c.superclass.map g.type
  isAbstract := c.isAbstract
  members := c.members.map (Member.change g)

def Declaration.change : Declaration → Declaration
  | .class c => .class (c.change g)
  | .function f => .function (f.change g)
  | .variable v => .variable (v.change g)

/-- A changed unit. Its path and its source stay. -/
def CompilationUnit.change (u : CompilationUnit) : CompilationUnit :=
  { u with declarations := u.declarations.map (Declaration.change g) }

/-- A walk that finds nothing at parentheses, and elsewhere finds the same in a changed phrase, but
for a change of what it finds. -/
structure Walk.Ignores {γ α : Type} (w : Walk γ α) (change : α → α) : Prop where
  visit_paren : ∀ (span : Span) (e : Expr) (context : γ), w.visit (.paren span e) context = []
  enter_paren : ∀ (span : Span) (e : Expr) (context : γ), w.enter (.paren span e) context = context
  visit_change : ∀ {c : Category} (p : Phrase c) (context : γ), p.isParen = false →
    w.visit (p.change g) context = (w.visit p context).map change
  enter_change : ∀ {c : Category} (p : Phrase c) (context : γ), p.isParen = false →
    w.enter (p.change g) context = w.enter p context
  sections_change : ∀ (e : Expr) (context : γ),
    w.sections (e.change g) context = w.sections e context

namespace Walk.Ignores

variable {g} {γ α : Type} {w : Walk γ α} {change : α → α}

/-- In parentheses is found what is found in the expression. -/
theorem walk_paren (h : w.Ignores g change) (span : Span) (e : Expr) (context : γ) :
    (Phrase.paren span e).walk w context = e.walk w context := by
  have hWithin : w.within (.paren span e) 0 context = context := h.enter_paren span e context
  rw [Phrase.walk_eq, h.visit_paren, List.nil_append]
  show e.walk w (w.within (.paren span e) 0 context) ++ [] = _
  rw [hWithin, List.append_nil]

/-- What a walk hands down to the parts of a phrase is not changed. -/
theorem within_change (h : w.Ignores g change) {c : Category} (p : Phrase c)
    (hParen : p.isParen = false) (i : Nat) (context : γ) :
    w.within (p.change g) i context = w.within p i context := by
  have hEnter := h.enter_change p context hParen
  cases p <;> try exact hEnter
  case paren => cases hParen
  case cascade span target sections =>
    match i with
    | 0 => exact hEnter
    | 1 =>
        have hSections := congrArg (w.sections (target.change g)) hEnter
        exact hSections.trans (h.sections_change target _)
    | _ + 2 => exact hEnter

/-- What a walk finds in a phrase is found in the changed phrase, but for a change of what it finds.
-/
theorem walk_phrase (h : w.Ignores g change) {c : Category} (p : Phrase c) (context : γ) :
    (p.change g).walk w context = (p.walk w context).map change := by
  induction p using Phrase.induction_open generalizing context with
  | paren span e ih =>
      have hParen := Phrase.apply_change_paren g (f := fun e => e.walk w context)
        (fun span e => h.walk_paren span e context) span e
      rw [h.walk_paren]
      exact hParen.trans (ih context)
  | other p hParen ih =>
      rw [Phrase.walk_eq w (p.change g), Phrase.walk_eq w p, h.visit_change p context hParen,
        Phrase.parts_change g p hParen, List.zipIdx_map, List.flatMap_map, List.map_append,
        List.map_flatMap]
      congr 1
      refine List.flatMap_congr fun part hPart => ?_
      have hMem := List.fst_mem_of_mem_zipIdx hPart
      exact (congrArg ((part.1.phrase.change g).walk w)
        (h.within_change p hParen part.2 context)).trans (ih part.1 hMem _)

theorem walk_member (h : w.Ignores g change) (m : Member) (context : γ) :
    (m.change g).walk w context = (m.walk w context).map change := by
  cases m with
  | field f => exact h.walk_phrase f.declared context
  | method m =>
      show (m.params.change g).walk w context ++ (m.body.change g).walk w context = _
      rw [h.walk_phrase, h.walk_phrase, ← List.map_append]
      rfl
  | constructor k =>
      show (k.params.change g).walk w context ++
        ((k.initializers.change g).walk w context ++ (k.body.change g).walk w context) = _
      rw [h.walk_phrase, h.walk_phrase, h.walk_phrase, ← List.map_append, ← List.map_append]
      rfl

theorem walk_declaration (h : w.Ignores g change) (d : Declaration) (context : γ) :
    (d.change g).walk w context = (d.walk w context).map change := by
  cases d with
  | «class» c =>
      show (c.members.map (Member.change g)).flatMap (Member.walk w context) = _
      rw [List.flatMap_map]
      simp only [h.walk_member, ← List.map_flatMap]
      rfl
  | function f => exact h.walk_phrase f context
  | «variable» v => exact h.walk_phrase v context

/-- A walk through a unit finds the same in the changed unit, but for a change of what it finds. -/
theorem walk_unit (h : w.Ignores g change) (u : CompilationUnit) (context : γ) :
    (u.change g).walk w context = (u.walk w context).map change := by
  show (u.declarations.map (Declaration.change g)).flatMap (Declaration.walk w context) = _
  rw [List.flatMap_map]
  simp only [h.walk_declaration, ← List.map_flatMap]
  rfl

end Walk.Ignores

end SetupLint
