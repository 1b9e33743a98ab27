import SetupLint.Proofs.ChangedRules

/-! Trees in which some identifiers are no longer resolved. Which ones is said by their addresses.
A rule that does not look at these resolutions finds the same. These are all but the one about
props that are read directly: calls have resolutions of their own, and the target of a cleanup, the
builder closure and a held value are known by how they are written. -/
namespace SetupLint

/-! Lists whose elements are changed by their numbers. -/

/-- What a change by numbers leaves as it is can be read off the list before it. -/
theorem map_mapIdx {α β : Type} {f : Nat → α → α} {k : α → β} (h : ∀ i a, k (f i a) = k a)
    (l : List α) : (l.mapIdx f).map k = l.map k := by
  apply List.ext_getElem?
  simp [Function.comp_def, h]

theorem zipIdx_mapIdx {α β : Type} (f : Nat → α → β) (l : List α) :
    (l.mapIdx f).zipIdx = l.zipIdx.map fun a => (f a.2 a.1, a.2) := by
  apply List.ext_getElem?
  intro i
  simp [Option.map_map, Function.comp_def]

/-- A change by numbers that keeps what is looked for keeps the first place of it. -/
theorem findIdx?_mapIdx {α : Type} {p : α → Bool} {f : Nat → α → α} (h : ∀ i a, p (f i a) = p a)
    (l : List α) : (l.mapIdx f).findIdx? p = l.findIdx? p := by
  induction l generalizing f with
  | nil => rfl
  | cons a l ih =>
      rw [List.mapIdx_cons, List.findIdx?_cons, List.findIdx?_cons, h, ih fun i => h (i + 1)]

/-- Some phrases of a tree, by their addresses. -/
abbrev Selection := Address → Bool

namespace Selection

/-- What is selected of the part with a number. -/
def inPart (s : Selection) (i : Nat) : Selection := fun address => s (i :: address)

/-- What is selected of the phrase at an address. -/
def below (s : Selection) (way : Address) : Selection := fun address => s (way ++ address)

end Selection

namespace Phrase

/-- A phrase in which the selected identifiers are not resolved. Other phrases that are selected
stay as they are, also calls. -/
def unresolve (lost : Selection) : {c : Category} → Phrase c → Phrase c
  | _, .identifier span name resolved =>
    .identifier span name (if lost [] then Option.none else resolved)
  | _, p@(.this ..) => p
  | _, p@(.literal ..) => p
  | _, .interpolation span expressions =>
    .interpolation span (expressions.unresolve (lost.inPart 0))
  | _, .listLiteral span typeArgs isConst elements =>
    .listLiteral span typeArgs isConst (elements.unresolve (lost.inPart 0))
  | _, .mapLiteral span typeArgs isConst entries =>
    .mapLiteral span typeArgs isConst (entries.unresolve (lost.inPart 0))
  | _, .spread span operand nullAware => .spread span (operand.unresolve (lost.inPart 0)) nullAware
  | _, .property span target name nullAware =>
    .property span (target.unresolve (lost.inPart 0)) name nullAware
  | _, .index span target position =>
    .index span (target.unresolve (lost.inPart 0)) (position.unresolve (lost.inPart 1))
  | _, .call span target method typeArgs args nullAware resolved =>
    .call span (target.unresolve (lost.inPart 0)) method typeArgs (args.unresolve (lost.inPart 1))
      nullAware resolved
  | _, .create span type named args isConst =>
    .create span type named (args.unresolve (lost.inPart 0)) isConst
  | _, .function fn => .function (fn.unresolve (lost.inPart 0))
  | _, .assign span operator target value =>
    .assign span operator (target.unresolve (lost.inPart 0)) (value.unresolve (lost.inPart 1))
  | _, .update span operator isBefore operand =>
    .update span operator isBefore (operand.unresolve (lost.inPart 0))
  | _, .conditional span test consequent alternate =>
    .conditional span (test.unresolve (lost.inPart 0)) (consequent.unresolve (lost.inPart 1))
      (alternate.unresolve (lost.inPart 2))
  | _, .switchExpr span discriminant cases =>
    .switchExpr span (discriminant.unresolve (lost.inPart 0)) (cases.unresolve (lost.inPart 1))
  | _, .binary span operator left right =>
    .binary span operator (left.unresolve (lost.inPart 0)) (right.unresolve (lost.inPart 1))
  | _, .unary span operator operand => .unary span operator (operand.unresolve (lost.inPart 0))
  | _, .await span operand => .await span (operand.unresolve (lost.inPart 0))
  | _, .paren span expression => .paren span (expression.unresolve (lost.inPart 0))
  | _, .cascade span target sections =>
    .cascade span (target.unresolve (lost.inPart 0)) (sections.unresolve (lost.inPart 1))
  | _, p@(.cascadeReceiver ..) => p
  | _, .typeTest span kind expression type =>
    .typeTest span kind (expression.unresolve (lost.inPart 0)) type
  | _, .throw span operand => .throw span (operand.unresolve (lost.inPart 0))
  | _, .blockStmt inner => .blockStmt (inner.unresolve (lost.inPart 0))
  | _, .expressionStmt span expression =>
    .expressionStmt span (expression.unresolve (lost.inPart 0))
  | _, .variableStmt decl => .variableStmt (decl.unresolve (lost.inPart 0))
  | _, .patternStmt span keywords pattern init =>
    .patternStmt span keywords (pattern.unresolve (lost.inPart 0)) (init.unresolve (lost.inPart 1))
  | _, .functionStmt decl => .functionStmt (decl.unresolve (lost.inPart 0))
  | _, .ifStmt span test consequent alternate =>
    .ifStmt span (test.unresolve (lost.inPart 0)) (consequent.unresolve (lost.inPart 1))
      (alternate.unresolve (lost.inPart 2))
  | _, .forStmt span init test step inner =>
    .forStmt span (init.unresolve (lost.inPart 0)) (test.unresolve (lost.inPart 1))
      (step.unresolve (lost.inPart 2)) (inner.unresolve (lost.inPart 3))
  | _, .forInStmt span binding iterable isAwait inner =>
    .forInStmt span (binding.unresolve (lost.inPart 0)) (iterable.unresolve (lost.inPart 1)) isAwait
      (inner.unresolve (lost.inPart 2))
  | _, .whileStmt span test inner =>
    .whileStmt span (test.unresolve (lost.inPart 0)) (inner.unresolve (lost.inPart 1))
  | _, .doWhileStmt span inner test =>
    .doWhileStmt span (inner.unresolve (lost.inPart 0)) (test.unresolve (lost.inPart 1))
  | _, .switchStmt span discriminant cases =>
    .switchStmt span (discriminant.unresolve (lost.inPart 0)) (cases.unresolve (lost.inPart 1))
  | _, .tryStmt span inner handlers finalizer =>
    .tryStmt span (inner.unresolve (lost.inPart 0)) (handlers.unresolve (lost.inPart 1))
      (finalizer.unresolve (lost.inPart 2))
  | _, .returnStmt span operand => .returnStmt span (operand.unresolve (lost.inPart 0))
  | _, p@(.breakStmt ..) => p
  | _, p@(.continueStmt ..) => p
  | _, p@(.emptyStmt ..) => p
  | _, p@(.variablePattern ..) => p
  | _, .objectPattern span type fields =>
    .objectPattern span type (fields.unresolve (lost.inPart 0))
  | _, .recordPattern span fields => .recordPattern span (fields.unresolve (lost.inPart 0))
  | _, .listPattern span elements => .listPattern span (elements.unresolve (lost.inPart 0))
  | _, .constantPattern span expression =>
    .constantPattern span (expression.unresolve (lost.inPart 0))
  | _, p@(.wildcardPattern ..) => p
  | _, .block span statements => .block span (statements.unresolve (lost.inPart 0))
  | _, .body span modifier kind => .body span modifier (kind.unresolve (lost.inPart 0))
  | _, .blockBody inner => .blockBody (inner.unresolve (lost.inPart 0))
  | _, .exprBody expression => .exprBody (expression.unresolve (lost.inPart 0))
  | _, .noBody => .noBody
  | _, .param span name type named default =>
    .param span name type named (default.unresolve (lost.inPart 0))
  | _, .declarator span name init => .declarator span name (init.unresolve (lost.inPart 0))
  | _, .argument label value => .argument label (value.unresolve (lost.inPart 0))
  | _, .mapEntry key value =>
    .mapEntry (key.unresolve (lost.inPart 0)) (value.unresolve (lost.inPart 1))
  | _, .patternField label pattern => .patternField label (pattern.unresolve (lost.inPart 0))
  | _, .switchCase span pattern guard inner =>
    .switchCase span (pattern.unresolve (lost.inPart 0)) (guard.unresolve (lost.inPart 1))
      (inner.unresolve (lost.inPart 2))
  | _, .switchExprCase span pattern guard inner =>
    .switchExprCase span (pattern.unresolve (lost.inPart 0)) (guard.unresolve (lost.inPart 1))
      (inner.unresolve (lost.inPart 2))
  | _, .catchClause span exceptionType caught inner =>
    .catchClause span exceptionType caught (inner.unresolve (lost.inPart 0))
  | _, .variableDecl span keywords type declared =>
    .variableDecl span keywords type (declared.unresolve (lost.inPart 0))
  | _, .functionDecl span name returnType params inner =>
    .functionDecl span name returnType (params.unresolve (lost.inPart 0))
      (inner.unresolve (lost.inPart 1))
  | _, .closure span params inner =>
    .closure span (params.unresolve (lost.inPart 0)) (inner.unresolve (lost.inPart 1))
  | _, .nil => .nil
  | _, .cons head tail =>
    .cons (head.unresolve (lost.inPart 0)) (tail.unresolve (lost.inPart 1))
  | _, .none => .none
  | _, .some value => .some (value.unresolve (lost.inPart 0))

end Phrase

def Node.unresolve (lost : Selection) (node : Node) : Node := ⟨node.phrase.unresolve lost⟩

/-! Declarations in which the selected identifiers are not resolved. An address leads through the
number of a declaration and, in a class, those of a member and of one of its parts. -/

section

variable (lost : Selection)

def FieldDecl.unresolve (f : FieldDecl) : FieldDecl :=
  { f with declared := f.declared.unresolve (lost.inPart 0) }

def MethodDecl.unresolve (m : MethodDecl) : MethodDecl :=
  { m with
    params := m.params.unresolve (lost.inPart 0)
    body := m.body.unresolve (lost.inPart 1) }

def ConstructorDecl.unresolve (k : ConstructorDecl) : ConstructorDecl :=
  { k with
    params := k.params.unresolve (lost.inPart 0)
    initializers := k.initializers.unresolve (lost.inPart 1)
    body := k.body.unresolve (lost.inPart 2) }

def Member.unresolve : Member → Member
  | .field f => .field (f.unresolve lost)
  | .method m => .method (m.unresolve lost)
  | .constructor k => .constructor (k.unresolve lost)

def ClassDecl.unresolve (c : ClassDecl) : ClassDecl :=
  { c with members := c.members.mapIdx fun i m => m.unresolve (lost.inPart i) }

def Declaration.unresolve : Declaration → Declaration
  | .class c => .class (c.unresolve lost)
  | .function f => .function (f.unresolve lost)
  | .variable v => .variable (v.unresolve lost)

def CompilationUnit.unresolve (u : CompilationUnit) : CompilationUnit :=
  { u with declarations := u.declarations.mapIdx fun i d => d.unresolve (lost.inPart i) }

end

/-- The change that drops what identifiers are resolved to. -/
def TreeChange.toUnresolved : TreeChange := ⟨id, false, true⟩

variable (lost : Selection)

namespace Phrase

variable {c : Category}

/-- A part loses what is selected of it. -/
theorem parts_unresolve (p : Phrase c) :
    (p.unresolve lost).parts = p.parts.mapIdx fun i part => part.unresolve (lost.inPart i) := by
  cases p <;> rfl

/-- At an address stands what stood there, less what is selected of it. -/
theorem at?_unresolve (p : Phrase c) (address : Address) :
    (p.unresolve lost).at? address = (p.at? address).map (Node.unresolve (lost.below address)) := by
  induction address generalizing c p lost with
  | nil => rfl
  | cons i address ih =>
      rw [at?_cons, at?_cons, parts_unresolve, List.getElem?_mapIdx, Option.bind_map,
        Option.map_bind]
      cases p.parts[i]? with
      | none => rfl
      | some part => exact ih (lost.inPart i) part.phrase

/-- Phrases that differ in the resolutions of identifiers only are the same without any. -/
theorem change_unresolve (p : Phrase c) :
    (p.unresolve lost).change .toUnresolved = p.change .toUnresolved := by
  -- Each part has a selection of its own, so the induction goes over all selections at once.
  induction p generalizing lost <;> first
    | rfl
    | (conv_lhs => whnf
       conv_rhs => whnf
       congr 1 <;> apply_assumption)

/-- What a change of resolutions leaves as it is stays when some of them are lost. -/
theorem map_unresolve {α : Type} {f : Phrase c → α}
    (h : ∀ p : Phrase c, f (p.change .toUnresolved) = f p) (p : Phrase c) :
    f (p.unresolve lost) = f p := by
  rw [← h (p.unresolve lost), change_unresolve, h]

end Phrase

theorem Member.change_unresolve (m : Member) :
    (m.unresolve lost).change .toUnresolved = m.change .toUnresolved := by
  cases m with
  | field f =>
      simp only [unresolve, change, FieldDecl.unresolve, FieldDecl.change, Phrase.change_unresolve]
  | method m =>
      simp only [unresolve, change, MethodDecl.unresolve, MethodDecl.change,
        Phrase.change_unresolve]
  | constructor k =>
      simp only [unresolve, change, ConstructorDecl.unresolve, ConstructorDecl.change,
        Phrase.change_unresolve]

theorem Declaration.change_unresolve (d : Declaration) :
    (d.unresolve lost).change .toUnresolved = d.change .toUnresolved := by
  cases d with
  | «class» c =>
      have hMembers : ((c.unresolve lost).members.map (Member.change .toUnresolved)) =
          c.members.map (Member.change .toUnresolved) :=
        map_mapIdx (fun i m => m.change_unresolve (lost.inPart i)) c.members
      exact congrArg (fun members => Declaration.class { c.change .toUnresolved with members })
        hMembers
  | function f => exact congrArg Declaration.function (f.change_unresolve lost)
  | «variable» v => exact congrArg Declaration.variable (v.change_unresolve lost)

/-- Units that differ in the resolutions of identifiers only are the same without any. -/
theorem CompilationUnit.change_unresolve (u : CompilationUnit) :
    (u.unresolve lost).change .toUnresolved = u.change .toUnresolved := by
  have hDeclarations : (u.unresolve lost).declarations.map (Declaration.change .toUnresolved) =
      u.declarations.map (Declaration.change .toUnresolved) :=
    map_mapIdx (fun i d => d.change_unresolve (lost.inPart i)) u.declarations
  exact congrArg (fun declarations => { u with declarations }) hDeclarations

/-- A rule that is not about props finds the same whatever identifiers are resolved to. -/
theorem Rule.findings_unresolve {r : Rule} (h : r ≠ .reactiveProps) (catalogs : Catalogs)
    (u : CompilationUnit) : r.findings catalogs (u.unresolve lost) = r.findings catalogs u :=
  findings_eq_of_change_eq (fun hProps => absurd hProps h) catalogs (u.change_unresolve lost)

end SetupLint
