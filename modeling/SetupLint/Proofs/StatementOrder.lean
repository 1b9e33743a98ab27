import Mathlib.Data.List.Forall2
import Mathlib.Data.List.Perm.Basic
import SetupLint.Proofs.Roots

/-! Trees with their statements in another order. One phrase is another one reordered if its
statement lists are those of the other one, at any depth, each in an order of its own; everything
else is as it was, spans included. A walk that does not carry anything from one statement to the
next finds the same in both, up to the order. -/
namespace SetupLint

/-- Two lists match up to order if the elements of one are related to those of the other, taken in
some order. -/
def MatchUpToOrder {α β : Type} (R : α → β → Prop) (l : List α) (m : List β) : Prop :=
  ∃ k, List.Forall₂ R l k ∧ k.Perm m

namespace MatchUpToOrder

variable {α β γ δ : Type} {R : α → β → Prop} {S : γ → δ → Prop} {l : List α} {m n : List β}

theorem of_forall₂ (h : List.Forall₂ R l m) : MatchUpToOrder R l m := ⟨m, h, List.Perm.refl m⟩

theorem nil : MatchUpToOrder R [] [] := of_forall₂ List.Forall₂.nil

theorem cons {a : α} {b : β} (hHead : R a b) (h : MatchUpToOrder R l m) :
    MatchUpToOrder R (a :: l) (b :: m) := by
  obtain ⟨k, hRelated, hPerm⟩ := h
  exact ⟨b :: k, List.Forall₂.cons hHead hRelated, hPerm.cons b⟩

/-- Another order of the second list does not matter. -/
theorem trans_perm (h : MatchUpToOrder R l m) (hPerm : m.Perm n) : MatchUpToOrder R l n := by
  obtain ⟨k, hRelated, hk⟩ := h
  exact ⟨k, hRelated, hk.trans hPerm⟩

theorem append {l' : List α} {m' : List β} (h : MatchUpToOrder R l m)
    (h' : MatchUpToOrder R l' m') : MatchUpToOrder R (l ++ l') (m ++ m') := by
  obtain ⟨k, hRelated, hPerm⟩ := h
  obtain ⟨k', hRelated', hPerm'⟩ := h'
  exact ⟨k ++ k', List.rel_append hRelated hRelated', hPerm.append hPerm'⟩

/-- What is found in lists that match up to order matches up to order. -/
theorem flatMap {f : α → List γ} {g : β → List δ} (h : MatchUpToOrder R l m)
    (hFound : ∀ a b, R a b → MatchUpToOrder S (f a) (g b)) :
    MatchUpToOrder S (l.flatMap f) (m.flatMap g) := by
  obtain ⟨k, hk, hPerm⟩ := h
  have hMatch : MatchUpToOrder S (l.flatMap f) (k.flatMap g) := by
    clear hPerm
    induction hk with
    | nil => exact nil
    | cons hHead _ ih =>
        rw [List.flatMap_cons, List.flatMap_cons]
        exact (hFound _ _ hHead).append ih
  exact hMatch.trans_perm (hPerm.flatMap_right g)

theorem of_rel {a : Option α} {b : Option β} (h : Option.Rel R a b) :
    MatchUpToOrder R a.toList b.toList := by
  cases h with
  | none => exact nil
  | some hab => exact cons hab nil

/-- What is found in lists that match up to order matches up to order. -/
theorem filterMap {f : α → Option γ} {g : β → Option δ} (h : MatchUpToOrder R l m)
    (hFound : ∀ a b, R a b → Option.Rel S (f a) (g b)) :
    MatchUpToOrder S (l.filterMap f) (m.filterMap g) := by
  rw [List.filterMap_eq_flatMap_toList, List.filterMap_eq_flatMap_toList]
  exact h.flatMap fun a b hab => of_rel (hFound a b hab)

/-- What is found in one list in two ways matches up to order if it does for every element. -/
theorem flatMap_left (l : List α) {f : α → List γ} {g : α → List δ}
    (hFound : ∀ a ∈ l, MatchUpToOrder S (f a) (g a)) :
    MatchUpToOrder S (l.flatMap f) (l.flatMap g) := by
  induction l with
  | nil => exact nil
  | cons a l ih =>
      rw [List.flatMap_cons, List.flatMap_cons]
      exact (hFound a List.mem_cons_self).append
        (ih fun b hb => hFound b (List.mem_cons_of_mem a hb))

theorem map {f : α → γ} {g : β → δ} (h : MatchUpToOrder R l m)
    (hRelated : ∀ a b, R a b → S (f a) (g b)) : MatchUpToOrder S (l.map f) (m.map g) := by
  rw [List.map_eq_flatMap, List.map_eq_flatMap]
  exact h.flatMap fun a b hab => cons (hRelated a b hab) nil

theorem filter {p : α → Bool} {q : β → Bool} (h : MatchUpToOrder R l m)
    (hSame : ∀ a b, R a b → p a = q b) : MatchUpToOrder R (l.filter p) (m.filter q) := by
  obtain ⟨k, hk, hPerm⟩ := h
  refine ⟨k.filter q, ?_, hPerm.filter q⟩
  clear hPerm
  induction hk with
  | nil => exact List.Forall₂.nil
  | @cons a b l k hHead _ ih =>
      rw [List.filter_cons, List.filter_cons, hSame a b hHead]
      split
      · exact List.Forall₂.cons hHead ih
      · exact ih

/-- Up to order the same list is a permutation. -/
theorem eq_iff {l m : List α} : MatchUpToOrder Eq l m ↔ l.Perm m := by
  constructor
  · rintro ⟨k, hk, hPerm⟩
    rw [List.forall₂_eq_eq_eq] at hk
    exact hk ▸ hPerm
  · exact fun hPerm => ⟨l, List.forall₂_same.mpr fun _ _ => rfl, hPerm⟩

theorem of_eq {l m : List α} (h : l = m) : MatchUpToOrder Eq l m := eq_iff.mpr (.of_eq h)

/-- What is found in each element is the same up to order. -/
theorem flatMap_perm {f : α → List γ} {g : β → List γ} (h : MatchUpToOrder R l m)
    (hFound : ∀ a b, R a b → (f a).Perm (g b)) : (l.flatMap f).Perm (m.flatMap g) :=
  eq_iff.mp (h.flatMap fun a b hab => eq_iff.mpr (hFound a b hab))

theorem filterMap_perm {f : α → Option γ} {g : β → Option γ} (h : MatchUpToOrder R l m)
    (hSame : ∀ a b, R a b → f a = g b) : (l.filterMap f).Perm (m.filterMap g) := by
  rw [List.filterMap_eq_flatMap_toList, List.filterMap_eq_flatMap_toList]
  exact h.flatMap_perm fun a b hab => by rw [hSame a b hab]

theorem map_perm {f : α → γ} {g : β → γ} (h : MatchUpToOrder R l m)
    (hSame : ∀ a b, R a b → f a = g b) : (l.map f).Perm (m.map g) :=
  eq_iff.mp (h.map hSame)

end MatchUpToOrder

namespace Phrase

/-- A phrase with other parts, each made from the part with its number. -/
def mapParts (f : {d : Category} → Nat → Phrase d → Phrase d) : {c : Category} → Phrase c → Phrase c
  | _, .identifier span name resolved => .identifier span name resolved
  | _, .this span => .this span
  | _, .literal span value => .literal span value
  | _, .interpolation span expressions => .interpolation span (f 0 expressions)
  | _, .listLiteral span typeArgs isConst elements =>
    .listLiteral span typeArgs isConst (f 0 elements)
  | _, .mapLiteral span typeArgs isConst entries => .mapLiteral span typeArgs isConst (f 0 entries)
  | _, .spread span operand nullAware => .spread span (f 0 operand) nullAware
  | _, .property span target name nullAware => .property span (f 0 target) name nullAware
  | _, .index span target position => .index span (f 0 target) (f 1 position)
  | _, .call span target method typeArgs args nullAware resolved =>
    .call span (f 0 target) method typeArgs (f 1 args) nullAware resolved
  | _, .create span type named args isConst => .create span type named (f 0 args) isConst
  | _, .function fn => .function (f 0 fn)
  | _, .assign span operator target value => .assign span operator (f 0 target) (f 1 value)
  | _, .update span operator isBefore operand => .update span operator isBefore (f 0 operand)
  | _, .conditional span test consequent alternate =>
    .conditional span (f 0 test) (f 1 consequent) (f 2 alternate)
  | _, .switchExpr span discriminant cases => .switchExpr span (f 0 discriminant) (f 1 cases)
  | _, .binary span operator left right => .binary span operator (f 0 left) (f 1 right)
  | _, .unary span operator operand => .unary span operator (f 0 operand)
  | _, .await span operand => .await span (f 0 operand)
  | _, .paren span expression => .paren span (f 0 expression)
  | _, .cascade span target sections => .cascade span (f 0 target) (f 1 sections)
  | _, .cascadeReceiver span => .cascadeReceiver span
  | _, .typeTest span kind expression type => .typeTest span kind (f 0 expression) type
  | _, .throw span operand => .throw span (f 0 operand)
  | _, .blockStmt inner => .blockStmt (f 0 inner)
  | _, .expressionStmt span expression => .expressionStmt span (f 0 expression)
  | _, .variableStmt decl => .variableStmt (f 0 decl)
  | _, .patternStmt span keywords pattern init =>
    .patternStmt span keywords (f 0 pattern) (f 1 init)
  | _, .functionStmt decl => .functionStmt (f 0 decl)
  | _, .ifStmt span test consequent alternate =>
    .ifStmt span (f 0 test) (f 1 consequent) (f 2 alternate)
  | _, .forStmt span init test step inner =>
    .forStmt span (f 0 init) (f 1 test) (f 2 step) (f 3 inner)
  | _, .forInStmt span binding iterable isAwait inner =>
    .forInStmt span (f 0 binding) (f 1 iterable) isAwait (f 2 inner)
  | _, .whileStmt span test inner => .whileStmt span (f 0 test) (f 1 inner)
  | _, .doWhileStmt span inner test => .doWhileStmt span (f 0 inner) (f 1 test)
  | _, .switchStmt span discriminant cases => .switchStmt span (f 0 discriminant) (f 1 cases)
  | _, .tryStmt span inner handlers finalizer =>
    .tryStmt span (f 0 inner) (f 1 handlers) (f 2 finalizer)
  | _, .returnStmt span operand => .returnStmt span (f 0 operand)
  | _, .breakStmt span label => .breakStmt span label
  | _, .continueStmt span label => .continueStmt span label
  | _, .emptyStmt span => .emptyStmt span
  | _, .variablePattern span name type => .variablePattern span name type
  | _, .objectPattern span type fields => .objectPattern span type (f 0 fields)
  | _, .recordPattern span fields => .recordPattern span (f 0 fields)
  | _, .listPattern span elements => .listPattern span (f 0 elements)
  | _, .constantPattern span expression => .constantPattern span (f 0 expression)
  | _, .wildcardPattern span => .wildcardPattern span
  | _, .block span statements => .block span (f 0 statements)
  | _, .body span modifier kind => .body span modifier (f 0 kind)
  | _, .blockBody inner => .blockBody (f 0 inner)
  | _, .exprBody expression => .exprBody (f 0 expression)
  | _, .noBody => .noBody
  | _, .param span name type named default => .param span name type named (f 0 default)
  | _, .declarator span name init => .declarator span name (f 0 init)
  | _, .argument label value => .argument label (f 0 value)
  | _, .mapEntry key value => .mapEntry (f 0 key) (f 1 value)
  | _, .patternField label pattern => .patternField label (f 0 pattern)
  | _, .switchCase span pattern guard inner =>
    .switchCase span (f 0 pattern) (f 1 guard) (f 2 inner)
  | _, .switchExprCase span pattern guard inner =>
    .switchExprCase span (f 0 pattern) (f 1 guard) (f 2 inner)
  | _, .catchClause span exceptionType caught inner =>
    .catchClause span exceptionType caught (f 0 inner)
  | _, .variableDecl span keywords type declared => .variableDecl span keywords type (f 0 declared)
  | _, .functionDecl span name returnType params inner =>
    .functionDecl span name returnType (f 0 params) (f 1 inner)
  | _, .closure span params inner => .closure span (f 0 params) (f 1 inner)
  | _, .nil => .nil
  | _, .cons head tail => .cons (f 0 head) (f 1 tail)
  | _, .none => .none
  | _, .some value => .some (f 0 value)

/-- A phrase and the same one with the statements of any of its lists in another order. -/
inductive Reordered : {c : Category} → Phrase c → Phrase c → Prop where
  /-- Nothing but the parts differs, and they are reordered. -/
  | parts {c : Category} (p : Phrase c) (f : {d : Category} → Nat → Phrase d → Phrase d)
      (h : ∀ (i : Nat) (part : Node), p.parts[i]? = some part →
        Reordered part.phrase (f i part.phrase)) : Reordered p (p.mapParts f)
  /-- The statements are reordered, and then they are permuted. -/
  | permuted {l m n : Phrase (.list .stmt)} (inner : Reordered l m)
      (perm : m.toList.Perm n.toList) : Reordered l n

variable {c : Category} {p q : Phrase c}

/-- A walk through a phrase with other parts goes through these. -/
theorem flatMap_parts_mapParts {β : Type} (f : {d : Category} → Nat → Phrase d → Phrase d)
    (p : Phrase c) (g : Node × Nat → List β) :
    (p.mapParts f).parts.zipIdx.flatMap g =
      p.parts.zipIdx.flatMap fun part => g (⟨f part.2 part.1.phrase⟩, part.2) := by
  cases p <;> rfl

/-- With its own parts a phrase is itself. -/
theorem mapParts_self (p : Phrase c) : (p.mapParts fun _ part => part) = p := by
  cases p <;> rfl

/-- The new part with a number, in the place of an old one of the same category. -/
def newPart (parts : List Node) {d : Category} (i : Nat) (part : Phrase d) : Phrase d :=
  match parts[i]? with
  | some other => if h : other.category = d then h ▸ other.phrase else part
  | none => part

end Phrase

/-- Phrases of one category of which one is the other one reordered. -/
inductive Node.Reordered : Node → Node → Prop where
  | intro {c : Category} {p q : Phrase c} (h : p.Reordered q) : Reordered ⟨p⟩ ⟨q⟩

namespace Phrase

variable {c : Category} {p q : Phrase c}

namespace Reordered

theorem refl (p : Phrase c) : p.Reordered p := by
  induction p using induction_parts with
  | step p ih =>
      have hParts := Reordered.parts p (fun _ part => part) fun i part hPart =>
        ih part (List.mem_of_getElem? hPart)
      rwa [mapParts_self] at hParts

/-- A phrase with reordered parts is reordered. -/
theorem of_parts {parts : List Node} (h : List.Forall₂ Node.Reordered p.parts parts) :
    p.Reordered (p.mapParts (newPart parts)) := by
  refine .parts p _ fun i part hPart => ?_
  obtain ⟨hi, rfl⟩ := List.getElem?_eq_some_iff.mp hPart
  have hi' : i < parts.length := h.length_eq ▸ hi
  have hNode : Node.Reordered p.parts[i] parts[i] := h.get hi hi'
  unfold newPart
  rw [List.getElem?_eq_getElem hi']
  generalize p.parts[i] = part at hNode
  generalize parts[i] = other at hNode
  obtain ⟨hPhrase⟩ := hNode
  simpa using hPhrase

/-- Replacing the only part of a phrase by a reordered one reorders the phrase. -/
theorem of_part {d : Category} {part part' : Phrase d} (hParts : p.parts = [⟨part⟩])
    (h : part.Reordered part') : p.Reordered (p.mapParts (newPart [⟨part'⟩])) := by
  have hNew : List.Forall₂ Node.Reordered p.parts [⟨part'⟩] := by
    rw [hParts]
    exact .cons (.intro h) .nil
  exact of_parts hNew

/-- A list with reordered items is reordered. -/
theorem ofList {l m : List (Phrase c)} (h : List.Forall₂ Reordered l m) :
    (ofList l).Reordered (ofList m) := by
  induction h with
  | nil => exact refl _
  | @cons head head' l m hHead _ ih =>
      have hNew : List.Forall₂ Node.Reordered (Phrase.cons head (Phrase.ofList l)).parts
          [⟨head'⟩, ⟨Phrase.ofList m⟩] := .cons (.intro hHead) (.cons (.intro ih) .nil)
      simpa [Phrase.ofList, mapParts, newPart] using of_parts hNew

/-- Apart from statement lists only the parts of a reordered phrase differ. -/
theorem exists_mapParts (h : p.Reordered q) (hCategory : c ≠ .list .stmt) :
    ∃ f : {d : Category} → Nat → Phrase d → Phrase d, q = p.mapParts f ∧
      ∀ (i : Nat) (part : Node), p.parts[i]? = some part →
        part.phrase.Reordered (f i part.phrase) := by
  cases h with
  | parts p f hParts => exact ⟨f, rfl, hParts⟩
  | permuted => exact absurd rfl hCategory

/-- The items of a list are reordered, and permuted if they are statements. -/
theorem items (h : p.Reordered q) : MatchUpToOrder Reordered p.items q.items := by
  induction h with
  | parts p f hParts ih =>
      cases p
      case cons head tail =>
        exact MatchUpToOrder.cons (hParts 0 ⟨head⟩ rfl) (ih 1 ⟨tail⟩ rfl)
      case some value => exact MatchUpToOrder.cons (hParts 0 ⟨value⟩ rfl) MatchUpToOrder.nil
      all_goals exact MatchUpToOrder.nil
  | permuted inner perm ih => exact ih.trans_perm perm

/-- The items of a list that are no statements stay in order. -/
theorem forall₂_items (h : p.Reordered q) (hCategory : c ≠ .list .stmt) :
    List.Forall₂ Reordered p.items q.items := by
  induction h with
  | parts p f hParts ih =>
      cases p
      case cons head tail =>
        exact List.Forall₂.cons (hParts 0 ⟨head⟩ rfl) (ih 1 ⟨tail⟩ rfl hCategory)
      case some value => exact List.Forall₂.cons (hParts 0 ⟨value⟩ rfl) List.Forall₂.nil
      all_goals exact List.Forall₂.nil
  | permuted => exact absurd rfl hCategory

theorem toOption {p q : Phrase (.option c)} (h : p.Reordered q) :
    Option.Rel Reordered p.toOption q.toOption := by
  obtain ⟨f, rfl, hParts⟩ := h.exists_mapParts (by simp)
  cases p with
  | none => exact Option.Rel.none
  | some value => exact Option.Rel.some (hParts 0 ⟨value⟩ rfl)

/-- A reordered phrase stands where it stood. -/
theorem span_eq (h : p.Reordered q) : p.span = q.span := by
  induction h with
  | parts p f hParts ih =>
      cases p <;> try rfl
      case function fn => exact ih 0 ⟨fn⟩ rfl
      case blockStmt inner => exact ih 0 ⟨inner⟩ rfl
      case variableStmt decl => exact ih 0 ⟨decl⟩ rfl
      case functionStmt decl => exact ih 0 ⟨decl⟩ rfl
  | @permuted l m n inner perm ih => cases l <;> cases n <;> rfl

end Reordered
end Phrase

/-! ### Declarations -/

inductive FieldDecl.Reordered : FieldDecl → FieldDecl → Prop where
  | intro (f : FieldDecl) {declared : Phrase (.list .declarator)}
      (hDeclared : f.declared.Reordered declared) : Reordered f { f with declared }

inductive MethodDecl.Reordered : MethodDecl → MethodDecl → Prop where
  | intro (m : MethodDecl) {params : Phrase (.list .param)} {body : Body}
      (hParams : m.params.Reordered params) (hBody : m.body.Reordered body) :
      Reordered m { m with params, body }

inductive ConstructorDecl.Reordered : ConstructorDecl → ConstructorDecl → Prop where
  | intro (k : ConstructorDecl) {params : Phrase (.list .param)}
      {initializers : Phrase (.list .expr)} {body : Body} (hParams : k.params.Reordered params)
      (hInitializers : k.initializers.Reordered initializers) (hBody : k.body.Reordered body) :
      Reordered k { k with params, initializers, body }

inductive Member.Reordered : Member → Member → Prop where
  | field {f g : FieldDecl} (h : f.Reordered g) : Reordered (.field f) (.field g)
  | method {m n : MethodDecl} (h : m.Reordered n) : Reordered (.method m) (.method n)
  | constructor {k l : ConstructorDecl} (h : k.Reordered l) :
      Reordered (.constructor k) (.constructor l)

/-- The members of a class stay in order. -/
inductive ClassDecl.Reordered : ClassDecl → ClassDecl → Prop where
  | intro (c : ClassDecl) {members : List Member}
      (hMembers : List.Forall₂ Member.Reordered c.members members) :
      Reordered c { c with members }

inductive Declaration.Reordered : Declaration → Declaration → Prop where
  | class {c d : ClassDecl} (h : c.Reordered d) : Reordered (.class c) (.class d)
  | function {f g : FunctionDecl} (h : Phrase.Reordered f g) : Reordered (.function f) (.function g)
  | variable {v w : VariableDecl} (h : Phrase.Reordered v w) : Reordered (.variable v) (.variable w)

/-- A unit and the same one, with its path and its source, with the statements of any of its blocks
in another order. -/
inductive CompilationUnit.Reordered : CompilationUnit → CompilationUnit → Prop where
  | intro (u : CompilationUnit) {declarations : List Declaration}
      (hDeclarations : List.Forall₂ Declaration.Reordered u.declarations declarations) :
      Reordered u { u with declarations }

/-- The variables of a field stay in order. -/
theorem FieldDecl.Reordered.declarators {f g : FieldDecl} (h : f.Reordered g) :
    List.Forall₂ Phrase.Reordered f.declared.toList g.declared.toList := by
  obtain ⟨hDeclared⟩ := h
  exact hDeclared.forall₂_items (by simp)

theorem ClassDecl.Reordered.members {c d : ClassDecl} (h : c.Reordered d) :
    List.Forall₂ Member.Reordered c.members d.members := by
  obtain ⟨hMembers⟩ := h
  exact hMembers

theorem CompilationUnit.Reordered.declarations {u v : CompilationUnit} (h : u.Reordered v) :
    List.Forall₂ Declaration.Reordered u.declarations v.declarations := by
  obtain ⟨hDeclarations⟩ := h
  exact hDeclarations

/-- The roots of a member are reordered one by one. -/
theorem Member.Reordered.roots {m n : Member} (h : m.Reordered n) :
    MatchUpToOrder Node.Reordered m.roots n.roots := by
  cases h with
  | field h =>
      obtain ⟨hDeclared⟩ := h
      exact .cons (.intro hDeclared) .nil
  | method h =>
      obtain ⟨hParams, hBody⟩ := h
      exact .cons (.intro hParams) (.cons (.intro hBody) .nil)
  | constructor h =>
      obtain ⟨hParams, hInitializers, hBody⟩ := h
      exact .cons (.intro hParams) (.cons (.intro hInitializers) (.cons (.intro hBody) .nil))

theorem Declaration.Reordered.roots {d e : Declaration} (h : d.Reordered e) :
    MatchUpToOrder Node.Reordered d.roots e.roots := by
  cases h with
  | «class» h =>
      exact (MatchUpToOrder.of_forall₂ h.members).flatMap fun _ _ hMember =>
        Member.Reordered.roots hMember
  | function h => exact .cons (.intro h) .nil
  | «variable» h => exact .cons (.intro h) .nil

/-- The roots of a unit are reordered one by one. -/
theorem CompilationUnit.Reordered.roots {u v : CompilationUnit} (h : u.Reordered v) :
    MatchUpToOrder Node.Reordered u.roots v.roots :=
  (MatchUpToOrder.of_forall₂ h.declarations).flatMap fun _ _ hDeclaration =>
    Declaration.Reordered.roots hDeclaration

/-! ### Walks -/

/-- A walk that does not see the order of statements: at reordered phrases it gives what matches
up to order and hands down the same contexts, and at statement lists it does nothing. -/
structure Walk.IgnoresOrder {γ α : Type} (w : Walk γ α) (R : α → α → Prop) : Prop where
  visit_reordered : ∀ {c : Category} {p q : Phrase c}, p.Reordered q → ∀ context,
    MatchUpToOrder R (w.visit p context) (w.visit q context)
  enter_reordered : ∀ {c : Category} {p q : Phrase c}, p.Reordered q → ∀ context,
    w.enter p context = w.enter q context
  sections_reordered : ∀ {e e' : Expr}, e.Reordered e' → ∀ context,
    w.sections e context = w.sections e' context
  visit_statements : ∀ (l : Phrase (.list .stmt)) context, w.visit l context = []
  enter_statements : ∀ (l : Phrase (.list .stmt)) context, w.enter l context = context

namespace Walk.IgnoresOrder

variable {γ α : Type} {w : Walk γ α} {R : α → α → Prop} (h : w.IgnoresOrder R)
include h

/-- What a walk hands down to the parts of a phrase does not depend on the order of statements. -/
theorem within_mapParts {c : Category} (p : Phrase c)
    (f : {d : Category} → Nat → Phrase d → Phrase d)
    (hParts : ∀ (i : Nat) (part : Node), p.parts[i]? = some part →
      part.phrase.Reordered (f i part.phrase)) (i : Nat) (context : γ) :
    w.within p i context = w.within (p.mapParts f) i context := by
  have hEnter := h.enter_reordered (.parts p f hParts) context
  cases p
  case cascade span target sections =>
    have hSections := h.sections_reordered (hParts 0 ⟨target⟩ rfl)
    match i with
    | 0 => exact hEnter
    | 1 => exact (congrArg (w.sections target) hEnter).trans (hSections _)
    | _ + 2 => exact hEnter
  all_goals exact hEnter

/-- The statements of a list are walked through one after the other. -/
theorem walk_statements (l : Phrase (.list .stmt)) (context : γ) :
    l.walk w context = l.toList.flatMap fun stmt => stmt.walk w context := by
  induction l using Phrase.induction_list with
  | nil =>
      rw [Phrase.walk_eq, h.visit_statements]
      rfl
  | cons stmt rest ih =>
      have hWithin : ∀ i, w.within (.cons stmt rest) i context = context :=
        fun _ => h.enter_statements _ _
      rw [Phrase.walk_eq, h.visit_statements, Phrase.toList_cons, List.flatMap_cons, ← ih]
      simp [Phrase.parts, hWithin]

/-- Such a walk finds the same in reordered phrases, up to order. -/
theorem walk_phrase {c : Category} {p q : Phrase c} (hReordered : p.Reordered q) (context : γ) :
    MatchUpToOrder R (p.walk w context) (q.walk w context) := by
  induction hReordered generalizing context with
  | parts p f hParts ih =>
      rw [Phrase.walk_eq, Phrase.walk_eq, Phrase.flatMap_parts_mapParts]
      refine (h.visit_reordered (.parts p f hParts) context).append
        (MatchUpToOrder.flatMap_left _ ?_)
      rintro ⟨part, i⟩ hPart
      simp only [← h.within_mapParts p f hParts]
      exact ih i part (List.mem_zipIdx_iff_getElem?.mp hPart) _
  | @permuted l m n inner perm ih =>
      have hWalk := ih context
      rw [h.walk_statements m] at hWalk
      rw [h.walk_statements n]
      exact hWalk.trans_perm (perm.flatMap_right _)

/-- A walk that does not see the order of statements finds the same in a reordered unit, perhaps in
another order. -/
theorem walk_unit {u v : CompilationUnit} (hReordered : u.Reordered v) (context : γ) :
    MatchUpToOrder R (u.walk w context) (v.walk w context) := by
  rw [u.walk_eq_roots, v.walk_eq_roots]
  refine hReordered.roots.flatMap fun a b hRoots => ?_
  obtain ⟨hPhrase⟩ := hRoots
  exact h.walk_phrase hPhrase context

end Walk.IgnoresOrder

end SetupLint
