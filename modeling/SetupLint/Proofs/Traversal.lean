import Mathlib.Data.List.Basic
import SetupLint.Proofs.Part
import SetupLint.Tree.Visit

/-! The traversal of a unit announces every phrase once. What phrases there are in a phrase is
read off the fields of its constructor, without the parts that a walk goes through. -/
namespace SetupLint

namespace Phrase

/-- The phrases in a phrase, each before those in it. -/
def nodes : {c : Category} → Phrase c → List Node
  | _, p@(.identifier ..) => [⟨p⟩]
  | _, p@(.this ..) => [⟨p⟩]
  | _, p@(.literal ..) => [⟨p⟩]
  | _, p@(.interpolation _ expressions) => ⟨p⟩ :: expressions.nodes
  | _, p@(.listLiteral _ _ _ elements) => ⟨p⟩ :: elements.nodes
  | _, p@(.mapLiteral _ _ _ entries) => ⟨p⟩ :: entries.nodes
  | _, p@(.spread _ operand _) => ⟨p⟩ :: operand.nodes
  | _, p@(.property _ target _ _) => ⟨p⟩ :: target.nodes
  | _, p@(.index _ target position) => ⟨p⟩ :: (target.nodes ++ position.nodes)
  | _, p@(.call _ target _ _ args _ _) => ⟨p⟩ :: (target.nodes ++ args.nodes)
  | _, p@(.create _ _ _ args _) => ⟨p⟩ :: args.nodes
  | _, p@(.function fn) => ⟨p⟩ :: fn.nodes
  | _, p@(.assign _ _ target value) => ⟨p⟩ :: (target.nodes ++ value.nodes)
  | _, p@(.update _ _ _ operand) => ⟨p⟩ :: operand.nodes
  | _, p@(.conditional _ test consequent alternate) =>
    ⟨p⟩ :: (test.nodes ++ (consequent.nodes ++ alternate.nodes))
  | _, p@(.switchExpr _ discriminant cases) => ⟨p⟩ :: (discriminant.nodes ++ cases.nodes)
  | _, p@(.binary _ _ left right) => ⟨p⟩ :: (left.nodes ++ right.nodes)
  | _, p@(.unary _ _ operand) => ⟨p⟩ :: operand.nodes
  | _, p@(.await _ operand) => ⟨p⟩ :: operand.nodes
  | _, p@(.paren _ expression) => ⟨p⟩ :: expression.nodes
  | _, p@(.cascade _ target sections) => ⟨p⟩ :: (target.nodes ++ sections.nodes)
  | _, p@(.cascadeReceiver ..) => [⟨p⟩]
  | _, p@(.typeTest _ _ expression _) => ⟨p⟩ :: expression.nodes
  | _, p@(.throw _ operand) => ⟨p⟩ :: operand.nodes
  | _, p@(.blockStmt inner) => ⟨p⟩ :: inner.nodes
  | _, p@(.expressionStmt _ expression) => ⟨p⟩ :: expression.nodes
  | _, p@(.variableStmt decl) => ⟨p⟩ :: decl.nodes
  | _, p@(.patternStmt _ _ pattern init) => ⟨p⟩ :: (pattern.nodes ++ init.nodes)
  | _, p@(.functionStmt decl) => ⟨p⟩ :: decl.nodes
  | _, p@(.ifStmt _ test consequent alternate) =>
    ⟨p⟩ :: (test.nodes ++ (consequent.nodes ++ alternate.nodes))
  | _, p@(.forStmt _ init test step inner) =>
    ⟨p⟩ :: (init.nodes ++ (test.nodes ++ (step.nodes ++ inner.nodes)))
  | _, p@(.forInStmt _ binding iterable _ inner) =>
    ⟨p⟩ :: (binding.nodes ++ (iterable.nodes ++ inner.nodes))
  | _, p@(.whileStmt _ test inner) => ⟨p⟩ :: (test.nodes ++ inner.nodes)
  | _, p@(.doWhileStmt _ inner test) => ⟨p⟩ :: (inner.nodes ++ test.nodes)
  | _, p@(.switchStmt _ discriminant cases) => ⟨p⟩ :: (discriminant.nodes ++ cases.nodes)
  | _, p@(.tryStmt _ inner handlers finalizer) =>
    ⟨p⟩ :: (inner.nodes ++ (handlers.nodes ++ finalizer.nodes))
  | _, p@(.returnStmt _ operand) => ⟨p⟩ :: operand.nodes
  | _, p@(.breakStmt ..) => [⟨p⟩]
  | _, p@(.continueStmt ..) => [⟨p⟩]
  | _, p@(.emptyStmt ..) => [⟨p⟩]
  | _, p@(.variablePattern ..) => [⟨p⟩]
  | _, p@(.objectPattern _ _ fields) => ⟨p⟩ :: fields.nodes
  | _, p@(.recordPattern _ fields) => ⟨p⟩ :: fields.nodes
  | _, p@(.listPattern _ elements) => ⟨p⟩ :: elements.nodes
  | _, p@(.constantPattern _ expression) => ⟨p⟩ :: expression.nodes
  | _, p@(.wildcardPattern ..) => [⟨p⟩]
  | _, p@(.block _ statements) => ⟨p⟩ :: statements.nodes
  | _, p@(.body _ _ kind) => ⟨p⟩ :: kind.nodes
  | _, p@(.blockBody inner) => ⟨p⟩ :: inner.nodes
  | _, p@(.exprBody expression) => ⟨p⟩ :: expression.nodes
  | _, p@.noBody => [⟨p⟩]
  | _, p@(.param _ _ _ _ default) => ⟨p⟩ :: default.nodes
  | _, p@(.declarator _ _ init) => ⟨p⟩ :: init.nodes
  | _, p@(.argument _ value) => ⟨p⟩ :: value.nodes
  | _, p@(.mapEntry key value) => ⟨p⟩ :: (key.nodes ++ value.nodes)
  | _, p@(.patternField _ pattern) => ⟨p⟩ :: pattern.nodes
  | _, p@(.switchCase _ pattern guard inner) =>
    ⟨p⟩ :: (pattern.nodes ++ (guard.nodes ++ inner.nodes))
  | _, p@(.switchExprCase _ pattern guard inner) =>
    ⟨p⟩ :: (pattern.nodes ++ (guard.nodes ++ inner.nodes))
  | _, p@(.catchClause _ _ _ inner) => ⟨p⟩ :: inner.nodes
  | _, p@(.variableDecl _ _ _ declared) => ⟨p⟩ :: declared.nodes
  | _, p@(.functionDecl _ _ _ params inner) => ⟨p⟩ :: (params.nodes ++ inner.nodes)
  | _, p@(.closure _ params inner) => ⟨p⟩ :: (params.nodes ++ inner.nodes)
  | _, p@.nil => [⟨p⟩]
  | _, p@(.cons head tail) => ⟨p⟩ :: (head.nodes ++ tail.nodes)
  | _, p@.none => [⟨p⟩]
  | _, p@(.some value) => ⟨p⟩ :: value.nodes

variable {c : Category}

/-- A phrase comes before the phrases in it. -/
theorem nodes_eq (p : Phrase c) :
    p.nodes = ⟨p⟩ :: p.parts.flatMap fun part => part.phrase.nodes := by
  cases p <;> simp only [parts, List.flatMap_cons, List.flatMap_nil, List.append_nil] <;> rfl

/-- A walk without context gives what it finds at each of the phrases in a phrase. -/
theorem walk_eq_nodes {α : Type} (w : Walk PUnit α) (p : Phrase c) :
    p.walk w () = p.nodes.flatMap fun node => w.visit node.phrase () := by
  induction p using induction_parts with
  | step p ih =>
      have hIndices : (p.parts.flatMap fun part => part.phrase.walk w ()) =
          p.parts.zipIdx.flatMap fun indexed => indexed.1.phrase.walk w () := by
        conv_lhs => rw [← List.zipIdx_map_fst 0 p.parts, List.flatMap_map]
      calc p.walk w ()
        _ = w.visit p () ++ p.parts.zipIdx.flatMap fun indexed => indexed.1.phrase.walk w () :=
          walk_eq w p ()
        _ = w.visit p () ++ p.parts.flatMap fun part =>
            part.phrase.nodes.flatMap fun node => w.visit node.phrase () := by
          rw [← hIndices, List.flatMap_congr ih]
        _ = p.nodes.flatMap fun node => w.visit node.phrase () := by
          rw [nodes_eq, List.flatMap_cons, List.flatMap_assoc]

end Phrase

def Member.nodes : Member → List Node
  | .field f => f.declared.nodes
  | .method m => m.params.nodes ++ m.body.nodes
  | .constructor k => k.params.nodes ++ (k.initializers.nodes ++ k.body.nodes)

def Declaration.nodes : Declaration → List Node
  | .class c => c.members.flatMap Member.nodes
  | .function f => f.nodes
  | .variable v => v.nodes

def CompilationUnit.nodes (u : CompilationUnit) : List Node :=
  u.declarations.flatMap Declaration.nodes

section Course

variable {c : Category} {α : Type} {f : Announcement → Option α}

/-- What of the course of a walk through phrases is kept. -/
theorem Phrase.filterMap_course (p : Phrase c) :
    (p.walk .course ()).filterMap f =
      p.nodes.flatMap fun node => node.phrase.announcements.filterMap f := by
  rw [walk_eq_nodes, List.filterMap_flatMap]
  rfl

/-- What is announced only as a declaration, a class or a member of it. -/
def Hook.isOutside : Hook → Bool
  | .declaration | .classDecl | .field | .method | .constructorDecl => true
  | _ => false

variable (hOutside : ∀ hook span, hook.isOutside → f (.node hook span) = none)
include hOutside

/-- A member is announced phrase by phrase. -/
theorem Member.filterMap_course (m : Member) :
    m.course.filterMap f = m.nodes.flatMap fun node => node.phrase.announcements.filterMap f := by
  cases m with
  | field decl =>
      have hHook := hOutside .field decl.span rfl
      simp [course, span, Member.walk, nodes, hHook, Phrase.filterMap_course]
  | method decl =>
      have hHook := hOutside .method decl.span rfl
      simp [course, span, Member.walk, nodes, hHook, Phrase.filterMap_course]
  | constructor decl =>
      have hHook := hOutside .constructorDecl decl.span rfl
      simp [course, span, Member.walk, nodes, hHook, Phrase.filterMap_course]

theorem Declaration.filterMap_course (d : Declaration) :
    d.course.filterMap f = d.nodes.flatMap fun node => node.phrase.announcements.filterMap f := by
  have hHook := hOutside .declaration d.span rfl
  cases d with
  | «class» c =>
      have hClass := hOutside .classDecl c.span rfl
      have hMembers := List.flatMap_congr fun m (_ : m ∈ c.members) =>
        Member.filterMap_course hOutside m
      simp [course, hHook, hClass, nodes, List.filterMap_flatMap, List.flatMap_assoc, hMembers]
  | function decl => simp [course, hHook, Declaration.walk, nodes, Phrase.filterMap_course]
  | «variable» decl => simp [course, hHook, Declaration.walk, nodes, Phrase.filterMap_course]

/-- What is kept of the course of a unit comes from its phrases, one after the other. -/
theorem CompilationUnit.filterMap_course (hUnit : ∀ path, f (.unit path) = none)
    (u : CompilationUnit) :
    u.course.filterMap f = u.nodes.flatMap fun node => node.phrase.announcements.filterMap f := by
  have hDeclarations := List.flatMap_congr fun d (_ : d ∈ u.declarations) =>
    Declaration.filterMap_course hOutside d
  simp [course, hUnit, nodes, List.filterMap_flatMap, List.flatMap_assoc, hDeclarations]

end Course

def Announcement.isFor (hook : Hook) : Announcement → Bool
  | .node other _ => other = hook
  | _ => false

/-- The categories whose phrases are visited one by one, each with its hook. -/
def visited : List (Category × Hook) := [(.expr, .expr), (.stmt, .stmt), (.pattern, .pattern)]

/-- A phrase of a visited category is announced once by its hook. -/
theorem Phrase.filter_announcements {c d : Category} {hook : Hook} (h : (c, hook) ∈ visited)
    (p : Phrase d) : p.announcements.filter (·.isFor hook) =
      if d = c then [.node hook p.span] else [] := by
  simp only [visited, List.mem_cons, List.not_mem_nil, or_false, Prod.mk.injEq] at h
  rcases h with ⟨rfl, rfl⟩ | ⟨rfl, rfl⟩ | ⟨rfl, rfl⟩ <;> cases p <;> rfl

theorem flatMap_ite {α β : Type} (p : α → Prop) [DecidablePred p] (f : α → β) (l : List α) :
    (l.flatMap fun a => if p a then [f a] else []) = (l.filter fun a => p a).map f := by
  induction l with
  | nil => rfl
  | cons a l ih => by_cases h : p a <;> simp [h, ih]

/-- The hook of a category is called once for each phrase of the category. -/
theorem CompilationUnit.filter_course {c : Category} {hook : Hook} (h : (c, hook) ∈ visited)
    (u : CompilationUnit) : u.course.filter (·.isFor hook) =
      (u.nodes.filter (·.category = c)).map fun node => .node hook node.phrase.span := by
  have hInside : hook.isOutside = false := by
    simp only [visited, List.mem_cons, List.not_mem_nil, or_false, Prod.mk.injEq] at h
    rcases h with ⟨-, rfl⟩ | ⟨-, rfl⟩ | ⟨-, rfl⟩ <;> rfl
  have hOutside : ∀ other span, other.isOutside →
      Option.guard (·.isFor hook) (Announcement.node other span) = none := by
    intro other span hOther
    have hNe : other ≠ hook := by
      rintro rfl
      rw [hInside] at hOther
      cases hOther
    simp [Option.guard, Announcement.isFor, hNe]
  have hCourse := filterMap_course hOutside (fun path => by simp [Announcement.isFor]) u
  rw [List.filterMap_eq_filter] at hCourse
  rw [hCourse, ← flatMap_ite]
  refine List.flatMap_congr fun node _ => ?_
  exact Phrase.filter_announcements h node.phrase

end SetupLint
