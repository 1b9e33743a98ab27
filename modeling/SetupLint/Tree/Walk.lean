import SetupLint.Tree.Declaration
import SetupLint.Tree.Part

/-! Walks through a tree. A walk goes through phrases in the order of the source,
each phrase before its parts, and collects what it finds. On the way down it
carries a context, which a phrase may change for its parts. The sections of a
cascade have a context of their own, because they start where its target ends. -/
namespace SetupLint

/-- A walk that collects values of type `α` in contexts of type `γ`. -/
structure Walk (γ α : Type) where
  /-- What a phrase in a context gives, apart from its parts. -/
  visit : {c : Category} → Phrase c → γ → List α
  /-- The context of the parts of a phrase. -/
  enter : {c : Category} → Phrase c → γ → γ := fun _ context => context
  /-- The context of the sections of a cascade, by its target and the context of
  the target. -/
  sections : Expr → γ → γ := fun _ context => context

/-- The context of the part with a number. -/
def Walk.within {γ α : Type} (w : Walk γ α) : {c : Category} → Phrase c → Nat → γ → γ
  | _, p@(.cascade _ target _), 1, context => w.sections target (w.enter p context)
  | _, p, _, context => w.enter p context

/-- All that a walk finds in a phrase. -/
def Phrase.walk {γ α : Type} (w : Walk γ α) {c : Category} (p : Phrase c) : γ → List α :=
  p.fold fun p parts context =>
    w.visit p context ++ parts.zipIdx.flatMap fun (part, i) => part (w.within p i context)

def Member.walk {γ α : Type} (w : Walk γ α) (context : γ) : Member → List α
  | .field f => f.declared.walk w context
  | .method m => m.params.walk w context ++ m.body.walk w context
  | .constructor k =>
    k.params.walk w context ++ (k.initializers.walk w context ++ k.body.walk w context)

def Declaration.walk {γ α : Type} (w : Walk γ α) (context : γ) : Declaration → List α
  | .class c => c.members.flatMap (Member.walk w context)
  | .function f => f.walk w context
  | .variable v => v.walk w context

def CompilationUnit.walk {γ α : Type} (w : Walk γ α) (context : γ) (u : CompilationUnit) :
    List α :=
  u.declarations.flatMap (Declaration.walk w context)

end SetupLint
