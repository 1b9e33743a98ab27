import Mathlib.Data.List.Basic
import Mathlib.Data.List.Flatten
import SetupLint.Proofs.Part
import SetupLint.Tree.Walk

/-! The roots of a unit: the phrases that are in no other phrase. A walk through a unit starts anew
at each of them, so what holds of walks through phrases is carried over to units by way of the
roots. -/
namespace SetupLint

/-- The roots of a member of a class, in order. -/
def Member.roots : Member → List Node
  | .field f => [⟨f.declared⟩]
  | .method m => [⟨m.params⟩, ⟨m.body⟩]
  | .constructor k => [⟨k.params⟩, ⟨k.initializers⟩, ⟨k.body⟩]

def Declaration.roots : Declaration → List Node
  | .class c => c.members.flatMap Member.roots
  | .function f => [⟨f⟩]
  | .variable v => [⟨v⟩]

def CompilationUnit.roots (u : CompilationUnit) : List Node :=
  u.declarations.flatMap Declaration.roots

section

variable {γ α : Type} (w : Walk γ α) (context : γ)

/-- Walking through a member is walking through its roots, one after the other. -/
theorem Member.walk_eq_roots (m : Member) :
    m.walk w context = m.roots.flatMap fun root => root.phrase.walk w context := by
  cases m <;> simp [Member.walk, roots]

theorem Declaration.walk_eq_roots (d : Declaration) :
    d.walk w context = d.roots.flatMap fun root => root.phrase.walk w context := by
  cases d with
  | «class» c =>
      rw [Declaration.walk, roots, List.flatMap_assoc]
      exact List.flatMap_congr fun m _ => m.walk_eq_roots w context
  | function f => simp [Declaration.walk, roots]
  | «variable» v => simp [Declaration.walk, roots]

/-- A walk through a unit goes through one root after the other. -/
theorem CompilationUnit.walk_eq_roots (u : CompilationUnit) :
    u.walk w context = u.roots.flatMap fun root => root.phrase.walk w context := by
  rw [CompilationUnit.walk, roots, List.flatMap_assoc]
  exact List.flatMap_congr fun d _ => d.walk_eq_roots w context

end

section

variable {γ α β : Type} {w w' : Walk γ α} {f : α → β}
  (hWithin : ∀ {c : Category} (p : Phrase c) (i : Nat) (context : γ),
    w.within p i context = w'.within p i context)
  (hVisit : ∀ {c : Category} (p : Phrase c) (context : γ),
    ((w.visit p context).map f).Sublist ((w'.visit p context).map f))
include hWithin hVisit

/-- If two walks hand down the same contexts and one gives less than the other at every phrase,
it finds less. -/
theorem Phrase.map_walk_sublist {c : Category} (p : Phrase c) (context : γ) :
    ((p.walk w context).map f).Sublist ((p.walk w' context).map f) := by
  induction p using induction_parts generalizing context with
  | step p ih =>
      rw [walk_eq, walk_eq, List.map_append, List.map_append, List.map_flatMap, List.map_flatMap]
      refine (hVisit p context).append (List.Sublist.flatMap_right _ ?_)
      rintro ⟨part, i⟩ hPart
      simp only [hWithin]
      exact ih part (List.fst_mem_of_mem_zipIdx hPart) _

theorem CompilationUnit.map_walk_sublist (u : CompilationUnit) (context : γ) :
    ((u.walk w context).map f).Sublist ((u.walk w' context).map f) := by
  rw [walk_eq_roots, walk_eq_roots, List.map_flatMap, List.map_flatMap]
  exact List.Sublist.flatMap_right _ fun root _ =>
    root.phrase.map_walk_sublist hWithin hVisit context

end

end SetupLint
