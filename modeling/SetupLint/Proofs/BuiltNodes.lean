import Mathlib.Algebra.BigOperators.Group.List.Defs
import Mathlib.Data.Multiset.Range
import Mathlib.Tactic.Abel
import SetupLint.Proofs.CarriedSpans
import SetupLint.Tree.Draft

/-! Building one node. What is made carries the spans that its parts carried and each span that is
handed out while it is made, once. -/
namespace SetupLint

namespace Fresh

/-- The span that is handed out at an offset. -/
def spanAt (start : Nat) : Span := ⟨UInt32.ofNat start, UInt32.ofNat (start + width - 1)⟩

/-- The spans that are handed out one after the other from an offset on. -/
def newSpans (start count : Nat) : Multiset Span :=
  (Multiset.range count).map fun k => spanAt (start + width * k)

theorem newSpans_zero (start : Nat) : newSpans start 0 = 0 := rfl

theorem newSpans_one (start : Nat) : newSpans start 1 = {spanAt start} := rfl

/-- Taking spans twice is taking all of them at once, the later ones from where the earlier ones
end. -/
theorem newSpans_add (start m n : Nat) :
    newSpans start (m + n) = newSpans start m + newSpans (start + width * m) n := by
  rw [newSpans, Multiset.range_add, Multiset.map_add, Multiset.map_map]
  congr 1
  refine Multiset.map_congr rfl fun k _ => ?_
  simp only [Function.comp_apply, Nat.mul_add, Nat.add_assoc]

variable {α β : Type}

/-- A computation places its spans: what it makes carries the spans that were given to it and each
of the spans that it takes, once. -/
def Places (make : Fresh α) (carried : α → Multiset Span) (given : Multiset Span) : Prop :=
  ∀ start, ∃ count, (make.run start).2 = start + width * count ∧
    carried (make.run start).1 = given + newSpans start count

section Rules

variable {make : Fresh α} {next : α → Fresh β} {f : α → Fresh β} {carried : α → Multiset Span}
  {carried' : β → Multiset Span} {given used : Multiset Span}

theorem places_pure {a : α} (h : carried a = given) : Places (pure a) carried given := by
  intro start
  exact ⟨0, rfl, by rw [newSpans_zero, add_zero, ← h]; rfl⟩

/-- A span that is taken is carried by itself. -/
theorem places_span : Places span Span.once 0 := by
  intro start
  exact ⟨1, by rfl, by rw [newSpans_one, zero_add]; rfl⟩

/-- What is made of given spans carries these and new ones, and the new ones are there for what
comes next. -/
theorem Places.bind_given (hMake : Places make carried used)
    (hNext : ∀ a new, carried a = used + new → Places (next a) carried' (given + new)) :
    Places (make >>= next) carried' given := by
  intro start
  obtain ⟨m, hStop, hMade⟩ := hMake start
  obtain ⟨n, hEnd, hCarried⟩ := hNext _ _ hMade (start + width * m)
  rw [← hStop] at hEnd hCarried
  refine ⟨m + n, ?_, ?_⟩
  · rw [Nat.mul_add, ← Nat.add_assoc, ← hStop]
    exact hEnd
  · rw [newSpans_add, ← add_assoc, ← hStop]
    exact hCarried

/-- What is made of nothing carries new spans only. -/
theorem Places.bind (hMake : Places make carried 0)
    (hNext : ∀ a, Places (next a) carried' (given + carried a)) :
    Places (make >>= next) carried' given := by
  refine hMake.bind_given fun a new hNew => ?_
  rw [← zero_add new, ← hNew]
  exact hNext a

/-- All that is made goes into what comes next. -/
theorem Places.bind_all (hMake : Places make carried given)
    (hNext : ∀ a, Places (next a) carried' (carried a)) :
    Places (make >>= next) carried' given :=
  hMake.bind_given fun a _ hNew => hNew ▸ hNext a

/-- Both of what is made goes into what comes next. -/
theorem Places.bind_both {γ : Type} {other : Fresh γ} {last : α → γ → Fresh β}
    {carriedOther : γ → Multiset Span} (hMake : Places make carried given)
    (hOther : Places other carriedOther used)
    (hLast : ∀ a b, Places (last a b) carried' (carried a + carriedOther b)) :
    Places (make >>= fun a => other >>= last a) carried' (given + used) := by
  refine hMake.bind_given fun a newMade hMade => ?_
  refine hOther.bind_given fun b newOther hNewOther => ?_
  have hBoth := hLast a b
  rwa [hMade, hNewOther, add_add_add_comm, ← add_assoc] at hBoth

/-- All three of what is made go into what comes next. -/
theorem Places.bind_three {γ δ : Type} {second : Fresh γ} {third : Fresh δ}
    {last : α → γ → δ → Fresh β} {carriedSecond : γ → Multiset Span}
    {carriedThird : δ → Multiset Span} {givenThird : Multiset Span}
    (hMake : Places make carried given) (hSecond : Places second carriedSecond used)
    (hThird : Places third carriedThird givenThird)
    (hLast : ∀ a b c, Places (last a b c) carried'
      (carried a + carriedSecond b + carriedThird c)) :
    Places (make >>= fun a => second >>= fun b => third >>= last a b) carried'
      (given + used + givenThird) := by
  refine hMake.bind_given fun a newMade hMade => ?_
  refine hSecond.bind_given fun b newSecond hNewSecond => ?_
  refine hThird.bind_given fun c newThird hNewThird => ?_
  have hAll := hLast a b c
  rw [hMade, hNewSecond, hNewThird] at hAll
  convert hAll using 1
  abel

/-- If each part is placed around what it is made from, then so is a list of them. -/
theorem places_mapM (hMake : ∀ a, Places (f a) carried' (carried a)) (l : List α) :
    Places (l.mapM f) (fun made => (made.map carried').sum) (l.map carried).sum := by
  induction l with
  | nil => exact places_pure rfl
  | cons a l ih =>
      rw [List.mapM_cons]
      refine (hMake a).bind_given fun head newHead hHead => ?_
      refine ih.bind_given fun tail newTail hTail => ?_
      apply places_pure
      rw [List.map_cons, List.sum_cons, List.map_cons, List.sum_cons, hHead, hTail]
      ac_rfl

theorem places_mapM_new (hMake : ∀ a, Places (f a) carried' 0) (l : List α) :
    Places (l.mapM f) (fun made => (made.map carried').sum) 0 := by
  have hMapM := places_mapM hMake l
  rwa [List.sum_map_zero] at hMapM

/-- An optional part is placed like a list of at most one. -/
theorem places_optional (hMake : ∀ a, Places (f a) carried' (carried a)) (value : Option α) :
    Places (optional f value) (fun made => (made.toList.map carried').sum)
      (value.toList.map carried).sum := by
  cases value with
  | none => exact places_pure rfl
  | some a =>
      refine (hMake a).bind_given fun made new hNew => ?_
      apply places_pure
      simpa using hNew

theorem places_optional_new (hMake : ∀ a, Places (f a) carried' 0) (value : Option α) :
    Places (optional f value) (fun made => (made.toList.map carried').sum) 0 := by
  have hOptional := places_optional hMake value
  cases value <;> exact hOptional

end Rules

section Parts

attribute [local simp] Phrase.held Phrase.ownSpan? Phrase.span Phrase.writtenTypes
  Phrase.writtenNames Phrase.writtenKeywords Phrase.parts Phrase.carried_nil Phrase.carried_none
  Phrase.carried_some Phrase.carried_ofList Phrase.carried_ofOption

/-- A phrase is made when all that it holds and all that its parts carry was given. -/
theorem places_phrase {c : Category} {p : Phrase c} {given : Multiset Span}
    (h : p.held + (p.parts.map fun part => part.phrase.carried).sum = given) :
    Places (pure p) Phrase.carried given :=
  places_pure (p.carried_eq.trans h)

/-- A phrase with a new span carries it besides what was given. -/
theorem places_node {c : Category} {make : Span → Phrase c} {given : Multiset Span}
    (h : ∀ s, (make s).held + ((make s).parts.map fun part => part.phrase.carried).sum =
      given + s.once) : Places (node make) Phrase.carried given :=
  places_span.bind fun s => places_phrase (h s)

section Plain

variable {c d e : Category} {make : Span → Phrase c}

/-- A phrase that writes a single span holds just this one. -/
theorem held_eq_once {p : Phrase c} {s : Span} (h : p.heldSpans = [s]) : p.held = s.once := by
  rw [← Phrase.coe_heldSpans, h]
  rfl

/-- A phrase without parts carries its new span. -/
theorem places_leaf (hHeld : ∀ s, (make s).heldSpans = [s]) (hParts : ∀ s, (make s).parts = []) :
    Places (node make) Phrase.carried 0 := by
  refine places_node fun s => ?_
  rw [held_eq_once (hHeld s), hParts, List.map_nil, List.sum_nil, add_comm]

/-- A phrase with one part carries its new span besides what the part carries. -/
theorem places_single {p : Phrase d} (hHeld : ∀ s, (make s).heldSpans = [s])
    (hParts : ∀ s, (make s).parts = [⟨p⟩]) : Places (node make) Phrase.carried p.carried := by
  refine places_node fun s => ?_
  rw [held_eq_once (hHeld s), hParts, List.map_singleton, List.sum_singleton, add_comm]

/-- A phrase with two parts carries its new span besides what the parts carry. -/
theorem places_pair {p : Phrase d} {q : Phrase e} (hHeld : ∀ s, (make s).heldSpans = [s])
    (hParts : ∀ s, (make s).parts = [⟨p⟩, ⟨q⟩]) :
    Places (node make) Phrase.carried (p.carried + q.carried) := by
  refine places_node fun s => ?_
  rw [held_eq_once (hHeld s), hParts, List.map_cons, List.map_singleton, List.sum_pair, add_comm]

end Plain

theorem places_name (text : String) : Places (name text) Name.carried 0 := by
  refine places_span.bind fun s => ?_
  exact places_pure (zero_add _).symm

/-- A type carries what its arguments carry, and a new span for itself. -/
theorem places_typeRef (text : String) (args : List TypeRef) :
    Places (node fun s => (⟨s, text, args, false⟩ : TypeRef)) TypeRef.carried
      (args.map TypeRef.carried).sum := by
  refine places_span.bind fun s => ?_
  apply places_pure
  rw [TypeRef.carried_mk, add_comm]

theorem places_keyword (kind : KeywordKind) : Places (keyword kind) Keyword.carried 0 := by
  refine places_span.bind fun s => ?_
  exact places_pure (zero_add _).symm

theorem places_type (text : String) : Places (type text) TypeRef.carried 0 := by
  refine places_span.bind fun s => ?_
  apply places_pure
  simp [TypeRef.carried_mk]

/-! ### Expressions -/

section Expressions

theorem places_listLiteral (elements : List Expr) :
    Places (node fun s => .listLiteral s [] false (.ofList elements)) Phrase.carried
      (elements.map Phrase.carried).sum := by
  refine places_node fun s => ?_
  simp [add_comm]

theorem places_conditional (test consequent alternate : Expr) :
    Places (node fun s => .conditional s test consequent alternate) Phrase.carried
      (test.carried + consequent.carried + alternate.carried) := by
  refine places_node fun s => ?_
  simp
  abel

theorem places_cascade (target : Expr) (sections : List Expr) :
    Places (node fun s => .cascade s target (.ofList sections)) Phrase.carried
      (target.carried + (sections.map Phrase.carried).sum) := by
  refine places_node fun s => ?_
  simp [add_comm]

theorem places_property (target : Expr) (text : String) :
    Places (property target text) Phrase.carried target.carried := by
  refine places_span.bind fun s => ?_
  refine (places_name text).bind fun name => ?_
  apply places_phrase
  simp
  abel

/-- A call carries what its target, its type arguments and its arguments carry. The spans for itself
and for the name of the method are new. -/
theorem places_call (target : Option Expr) (method : String) (typeArgs : List TypeRef)
    (args : List Argument) (resolved : Option Resolution) :
    Places (call target method typeArgs args resolved) Phrase.carried
      ((target.toList.map Phrase.carried).sum + (typeArgs.map TypeRef.carried).sum +
        (args.map Phrase.carried).sum) := by
  refine places_span.bind fun s => ?_
  refine (places_name method).bind fun name => ?_
  apply places_phrase
  simp
  abel

theorem places_create (made : String) (args : List Argument) :
    Places (create made args) Phrase.carried (args.map Phrase.carried).sum := by
  refine places_span.bind fun s => ?_
  refine (places_type made).bind fun type => ?_
  apply places_phrase
  simp
  abel

theorem places_positional (value : Expr) :
    Places (pure (.argument none value)) Phrase.carried value.carried := by
  apply places_phrase
  simp

theorem places_namedArgument (label : String) (value : Expr) :
    Places (namedArgument label value) Phrase.carried value.carried := by
  refine (places_name label).bind fun name => ?_
  apply places_phrase
  simp
  abel

/-- All that a parameter carries is new. -/
theorem places_param (text : String) : Places (param text) Phrase.carried 0 := by
  refine places_span.bind fun s => ?_
  refine (places_name text).bind fun name => ?_
  apply places_phrase
  simp

theorem places_block (statements : List Stmt) :
    Places (block statements) Phrase.carried (statements.map Phrase.carried).sum := by
  refine places_node fun s => ?_
  simp [add_comm]

theorem places_body (modifier : BodyModifier) (kind : Phrase .bodyKind) :
    Places (body modifier kind) Phrase.carried kind.carried := by
  refine places_node fun s => ?_
  simp [add_comm]

theorem places_exprBody (expression : Expr) :
    Places (pure (.exprBody expression)) Phrase.carried expression.carried := by
  apply places_phrase
  simp

theorem places_blockBody (statements : List Stmt) :
    Places (blockBody statements) Phrase.carried (statements.map Phrase.carried).sum := by
  refine (places_block statements).bind_all fun made => ?_
  apply places_phrase
  simp

/-- A function literal carries its body besides what its parameters and itself were given. -/
theorem places_literal (kind : Phrase .bodyKind) (params : List (Phrase .param)) (s : Span) :
    Places (do return .function (.closure s (.ofList params) (← body .sync kind))) Phrase.carried
      (kind.carried + (params.map Phrase.carried).sum + s.once) := by
  refine (places_body .sync kind).bind_given fun made new hMade => ?_
  apply places_phrase
  simp [Phrase.carried_eq (.closure _ _ _), hMade]
  abel

/-- The parameters of a function literal are new, so it carries nothing given but its result. -/
theorem places_arrow (params : List String) (result : Expr) :
    Places (arrow params result) Phrase.carried result.carried := by
  refine (places_mapM_new places_param params).bind fun params => ?_
  refine places_span.bind fun s => ?_
  have hResult : (Phrase.exprBody result).carried = result.carried := by
    simp [Phrase.carried_eq (.exprBody result)]
  rw [← hResult]
  exact places_literal _ params s

/-- A function literal with a block carries what its statements carry. -/
theorem places_closure (params : List String) (statements : List Stmt) :
    Places (closure params statements) Phrase.carried (statements.map Phrase.carried).sum := by
  refine (places_mapM_new places_param params).bind fun params => ?_
  refine places_span.bind fun s => ?_
  refine (places_blockBody statements).bind_given fun kind new hKind => ?_
  have hLiteral := places_literal kind params s
  rw [hKind] at hLiteral
  convert hLiteral using 1
  abel

end Expressions

/-! ### Statements -/

section Statements

theorem places_returnStmt (operand : Expr) :
    Places (node fun s => .returnStmt s (.some operand)) Phrase.carried operand.carried := by
  refine places_node fun s => ?_
  simp [add_comm]

theorem places_blockStmt (statements : List Stmt) :
    Places (blockStmt statements) Phrase.carried (statements.map Phrase.carried).sum := by
  refine (places_block statements).bind_all fun made => ?_
  apply places_phrase
  simp

theorem places_declarator (text : String) (init : Option Expr) :
    Places (declarator text init) Phrase.carried (init.toList.map Phrase.carried).sum := by
  refine places_span.bind fun s => ?_
  refine (places_name text).bind fun name => ?_
  apply places_phrase
  simp
  abel

theorem places_localStmt (word : Option KeywordKind) (text : String) (init : Option Expr) :
    Places (localStmt word text init) Phrase.carried (init.toList.map Phrase.carried).sum := by
  refine (places_optional_new places_keyword word).bind fun keywords => ?_
  refine (places_declarator text init).bind_given fun entry new hEntry => ?_
  refine places_span.bind fun s => ?_
  apply places_phrase
  simp [Phrase.carried_eq (.variableDecl _ _ _ _), hEntry]
  abel

theorem places_variablePattern (text : String) :
    Places (variablePattern text) Phrase.carried 0 := by
  refine places_span.bind fun s => ?_
  refine (places_name text).bind fun name => ?_
  apply places_phrase
  simp

/-- All that a pattern of a record carries is new, as it binds the fields under their names. -/
theorem places_recordPattern (names : List String) :
    Places (recordPattern names) Phrase.carried 0 := by
  refine (places_mapM_new places_variablePattern names).bind fun patterns => ?_
  refine places_span.bind fun s => ?_
  apply places_phrase
  simp [Function.comp_def, Phrase.carried_eq (.patternField _ _)]
  abel

theorem places_patternStmt (pattern : Pattern) (init : Expr) :
    Places (patternStmt pattern init) Phrase.carried (pattern.carried + init.carried) := by
  refine places_span.bind fun s => ?_
  refine (places_keyword .finalWord).bind fun keyword => ?_
  apply places_phrase
  simp
  abel

/-- The branches of a conditional become blocks with new spans. -/
theorem places_ifStmt (test : Expr) (consequent : List Stmt) (alternate : Option (List Stmt)) :
    Places (ifStmt test consequent alternate) Phrase.carried
      (test.carried + (consequent.map Phrase.carried).sum +
        (alternate.toList.map fun statements => (statements.map Phrase.carried).sum).sum) := by
  refine places_span.bind fun s => ?_
  refine (places_blockStmt consequent).bind_given fun first newFirst hFirst => ?_
  have hOptional := places_optional places_blockStmt alternate
  refine hOptional.bind_given fun second newSecond hSecond => ?_
  apply places_phrase
  simp [hFirst, hSecond]
  abel

theorem places_forInStmt (text : String) (iterable : Expr) (statements : List Stmt) :
    Places (forInStmt text iterable statements) Phrase.carried
      (iterable.carried + (statements.map Phrase.carried).sum) := by
  refine places_span.bind fun s => ?_
  refine (places_variablePattern text).bind fun binding => ?_
  refine (places_blockStmt statements).bind_given fun block new hBlock => ?_
  apply places_phrase
  simp [hBlock]
  abel

theorem places_whileStmt (test : Expr) (statements : List Stmt) :
    Places (whileStmt test statements) Phrase.carried
      (test.carried + (statements.map Phrase.carried).sum) := by
  refine places_span.bind fun s => ?_
  refine (places_blockStmt statements).bind_given fun block new hBlock => ?_
  apply places_phrase
  simp [hBlock]
  abel

/-- The spans of a constant and of the statements behind it. -/
def armCarried (arm : Expr × List Stmt) : Multiset Span :=
  arm.1.carried + (arm.2.map Phrase.carried).sum

/-- A case carries its constant and its statements. -/
theorem places_switchCase (arm : Expr × List Stmt) :
    Places (switchCase arm.1 arm.2) Phrase.carried (armCarried arm) := by
  refine places_span.bind fun s => ?_
  refine places_span.bind fun t => ?_
  apply places_phrase
  simp [armCarried, Phrase.carried_eq (.constantPattern _ _)]
  abel

theorem places_defaultCase (statements : List Stmt) :
    Places (defaultCase statements) Phrase.carried (statements.map Phrase.carried).sum := by
  refine places_node fun s => ?_
  simp [add_comm]

/-- A switch carries what its cases and its default case carry. -/
theorem places_switchStmt (discriminant : Expr) (arms : List (Expr × List Stmt))
    (default : Option (List Stmt)) :
    Places (switchStmt discriminant arms default) Phrase.carried
      (discriminant.carried + (arms.map armCarried).sum +
        (default.toList.map fun statements => (statements.map Phrase.carried).sum).sum) := by
  refine (places_mapM places_switchCase arms).bind_given fun cases newCases hCases => ?_
  have hOptional := places_optional places_defaultCase default
  refine hOptional.bind_given fun last newLast hLast => ?_
  refine places_span.bind fun s => ?_
  apply places_phrase
  simp [hCases, hLast]
  abel

end Statements

/-! ### Declarations -/

/-- A field carries what its initial value carries, and new spans for its words, its type and its
name. -/
theorem places_field (words : List KeywordKind) (declared : Option String) (text : String)
    (init : Option Expr) :
    Places (field words declared text init) Member.carried
      (init.toList.map Phrase.carried).sum := by
  refine (places_mapM_new places_keyword words).bind fun keywords => ?_
  refine (places_optional_new places_type declared).bind fun declared => ?_
  refine (places_declarator text init).bind_given fun entry new hEntry => ?_
  refine places_span.bind fun s => ?_
  apply places_pure
  simp [Member.carried_field, hEntry]
  abel

theorem places_method (kind : MethodKind) (text : String) (inner : Body) :
    Places (method kind text inner) Member.carried inner.carried := by
  refine places_span.bind fun s => ?_
  refine (places_name text).bind fun name => ?_
  apply places_pure
  simp [Member.carried_method]
  abel

theorem places_function (text : String) (inner : Body) :
    Places (function text inner) Declaration.carried inner.carried := by
  refine places_span.bind fun s => ?_
  refine (places_name text).bind fun name => ?_
  apply places_pure
  simp [Declaration.carried_function, Phrase.carried_eq (.functionDecl _ _ _ _ _)]
  abel

/-- A class carries what its members carry, and new spans for its names. -/
theorem places_classDecl (text : String) (superclass : Option String) (members : List Member) :
    Places (classDecl text superclass members) Declaration.carried
      (members.map Member.carried).sum := by
  refine places_span.bind fun s => ?_
  refine (places_name text).bind fun name => ?_
  refine (places_optional_new places_type superclass).bind fun superclass => ?_
  apply places_pure
  simp [Declaration.carried_class]
  abel

end Parts

end Fresh

end SetupLint
