import SetupLint.Proofs.SetupPieces
import SetupLint.Proofs.StatementOrder

/-! Setup routines with their statements in another order. What a phrase is at a glance does not
depend on the order of the statements in it. The builder closure is the one closure that is
returned, wherever the `return` stands, and every other statement is walked through outside of it,
so the same happens in the same scopes. -/
namespace SetupLint

section

variable {α β γ δ : Type} {R : α → β → Prop} {S : γ → δ → Prop} {a : Option α} {b : Option β}

theorem isSome_eq_of_rel (h : Option.Rel R a b) : a.isSome = b.isSome := by
  cases h <;> rfl

theorem rel_map {f : α → γ} {g : β → δ} (h : Option.Rel R a b)
    (hRelated : ∀ x y, R x y → S (f x) (g y)) : Option.Rel S (a.map f) (b.map g) := by
  cases h with
  | none => exact .none
  | some hab => exact .some (hRelated _ _ hab)

theorem rel_elim {f : α → γ} {g : β → δ} {x : γ} {y : δ} (h : Option.Rel R a b) (hNone : S x y)
    (hRelated : ∀ x y, R x y → S (f x) (g y)) : S (a.elim x f) (b.elim y g) := by
  cases h with
  | none => exact hNone
  | some hab => exact hRelated _ _ hab

theorem rel_bind {f : α → Option γ} {g : β → Option δ} (h : Option.Rel R a b)
    (hFound : ∀ x y, R x y → Option.Rel S (f x) (g y)) :
    Option.Rel S (a.bind f) (b.bind g) := by
  cases h with
  | none => exact .none
  | some hab => exact hFound _ _ hab

theorem any_eq_of_rel {p : α → Bool} {q : β → Bool} (h : Option.Rel R a b)
    (hSame : ∀ x y, R x y → p x = q y) : a.any p = b.any q := by
  cases h with
  | none => rfl
  | some hab => exact hSame _ _ hab

theorem bind_eq_of_rel {f : α → Option γ} {g : β → Option γ} (h : Option.Rel R a b)
    (hSame : ∀ x y, R x y → f x = g y) : a.bind f = b.bind g := by
  cases h with
  | none => rfl
  | some hab => exact hSame _ _ hab

end

namespace Phrase.Reordered

variable {c : Category} {p q : Phrase c} {e e' : Expr}

/-- An expression is reordered behind its parentheses. -/
theorem withoutParens (h : p.Reordered q) : p.withoutParens.Reordered q.withoutParens := by
  induction h with
  | parts p f hParts ih =>
      cases p
      case paren span expression => exact ih 0 ⟨expression⟩ rfl
      all_goals exact .parts _ f hParts
  | @permuted l m n inner perm ih => cases l <;> cases n <;> exact .permuted inner perm

/-- What an expression is without its parentheses: only its parts may differ. -/
theorem exists_mapParts_withoutParens (h : e.Reordered e') :
    ∃ f : {d : Category} → Nat → Phrase d → Phrase d,
      e'.withoutParens = e.withoutParens.mapParts f ∧
        ∀ (i : Nat) (part : Node), e.withoutParens.parts[i]? = some part →
          part.phrase.Reordered (f i part.phrase) :=
  h.withoutParens.exists_mapParts (by simp)

theorem asIdentifier?_eq (h : e.Reordered e') : e.asIdentifier? = e'.asIdentifier? := by
  obtain ⟨f, hBare, -⟩ := h.exists_mapParts_withoutParens
  unfold asIdentifier?
  rw [hBare]
  cases e.withoutParens <;> rfl

theorem asFunction? (h : e.Reordered e') : Option.Rel Reordered e.asFunction? e'.asFunction? := by
  obtain ⟨f, hBare, hParts⟩ := h.exists_mapParts_withoutParens
  unfold Phrase.asFunction?
  rw [hBare]
  generalize e.withoutParens = bare at hParts
  cases bare
  case function fn => exact .some (hParts 0 ⟨fn⟩ rfl)
  all_goals exact .none

theorem isThis_eq (h : e.Reordered e') : e.isThis = e'.isThis := by
  obtain ⟨f, hBare, -⟩ := h.exists_mapParts_withoutParens
  unfold isThis
  rw [hBare]
  cases e.withoutParens <;> rfl

end Phrase.Reordered

/-- A call and the same one with its target and its arguments reordered. -/
structure Call.Reordered (call call' : Call) : Prop where
  span : call.span = call'.span
  target : Option.Rel Phrase.Reordered call.target call'.target
  method : call.method = call'.method
  typeArgs : call.typeArgs = call'.typeArgs
  args : List.Forall₂ Phrase.Reordered call.args call'.args
  nullAware : call.nullAware = call'.nullAware
  resolved : call.resolved = call'.resolved

namespace Phrase.Reordered

variable {c : Category} {p q : Phrase c} {e e' : Expr}

/-- A call stays a call, of the same method. -/
theorem call? (h : p.Reordered q) : Option.Rel Call.Reordered p.call? q.call? := by
  cases h with
  | parts p f hParts =>
      cases p
      case call span target method typeArgs args nullAware resolved =>
        have hArgs := (hParts 1 ⟨args⟩ rfl).forall₂_items (by simp)
        exact .some ⟨rfl, (hParts 0 ⟨target⟩ rfl).toOption, rfl, rfl, hArgs, rfl, rfl⟩
      all_goals exact .none
  | @permuted l m n inner perm => cases l <;> cases n <;> exact .none

theorem asCall? (h : e.Reordered e') : Option.Rel Call.Reordered e.asCall? e'.asCall? :=
  h.withoutParens.call?

theorem positional? {a a' : Argument} (h : a.Reordered a') :
    Option.Rel Reordered a.positional? a'.positional? := by
  obtain ⟨f, rfl, hParts⟩ := h.exists_mapParts (by simp)
  cases a with
  | argument label value =>
      cases label with
      | none => exact .some (hParts 0 ⟨value⟩ rfl)
      | some label => exact .none

theorem isDestructuring_eq {t t' : Pattern} (h : t.Reordered t') :
    t.isDestructuring = t'.isDestructuring := by
  obtain ⟨f, rfl, -⟩ := h.exists_mapParts (by simp)
  cases t <;> rfl

theorem isAsync_eq {b b' : Body} (h : b.Reordered b') : b.isAsync = b'.isAsync := by
  obtain ⟨f, rfl, -⟩ := h.exists_mapParts (by simp)
  cases b
  rfl

/-- The statements of a block match up to order. -/
theorem statements {b b' : Block} (h : b.Reordered b') :
    MatchUpToOrder Reordered b.statements b'.statements := by
  obtain ⟨f, rfl, hParts⟩ := h.exists_mapParts (by simp)
  cases b with
  | block span inner => exact (hParts 0 ⟨inner⟩ rfl).items

/-- A body keeps its block, reordered. -/
theorem block? {b b' : Body} (h : b.Reordered b') : Option.Rel Reordered b.block? b'.block? := by
  obtain ⟨f, rfl, hParts⟩ := h.exists_mapParts (by simp)
  cases b with
  | body span modifier kind =>
      obtain ⟨g, hKind, hInner⟩ := (hParts 0 ⟨kind⟩ rfl).exists_mapParts (by simp)
      show Option.Rel Reordered _ (Phrase.body span modifier (f 0 kind)).block?
      rw [hKind]
      cases kind with
      | blockBody inner => exact .some (hInner 0 ⟨inner⟩ rfl)
      | exprBody expression => exact .none
      | noBody => exact .none

theorem functionBody {k k' : Closure} (h : k.Reordered k') :
    k.functionBody.Reordered k'.functionBody := by
  obtain ⟨f, rfl, hParts⟩ := h.exists_mapParts (by simp)
  cases k with
  | closure span params inner => exact hParts 1 ⟨inner⟩ rfl

theorem returned? {s s' : Stmt} (h : s.Reordered s') :
    Option.Rel Reordered s.returned? s'.returned? := by
  obtain ⟨f, rfl, hParts⟩ := h.exists_mapParts (by simp)
  cases s
  case returnStmt span operand =>
    obtain ⟨g, hOperand, hInner⟩ := (hParts 0 ⟨operand⟩ rfl).exists_mapParts (by simp)
    show Option.Rel Reordered _ (Phrase.returnStmt span (f 0 operand)).returned?
    rw [hOperand]
    cases operand with
    | none => exact .none
    | some operand => exact (hInner 0 ⟨operand⟩ rfl).asFunction?
  all_goals exact .none

theorem declaredName_eq {d d' : Declarator} (h : d.Reordered d') :
    d.declaredName = d'.declaredName := by
  obtain ⟨f, rfl, -⟩ := h.exists_mapParts (by simp)
  cases d
  rfl

theorem initial? {d d' : Declarator} (h : d.Reordered d') :
    Option.Rel Reordered d.initial? d'.initial? := by
  obtain ⟨f, rfl, hParts⟩ := h.exists_mapParts (by simp)
  cases d with
  | declarator span name init => exact (hParts 0 ⟨init⟩ rfl).toOption

theorem declarators {d d' : VariableDecl} (h : d.Reordered d') :
    List.Forall₂ Reordered d.declarators d'.declarators := by
  obtain ⟨f, rfl, hParts⟩ := h.exists_mapParts (by simp)
  cases d with
  | variableDecl span keywords type declared =>
      exact (hParts 0 ⟨declared⟩ rfl).forall₂_items (by simp)

end Phrase.Reordered

namespace Call.Reordered

variable {call call' : Call} (h : call.Reordered call')
include h

theorem isTopLevel_eq : call.isTopLevel = call'.isTopLevel := by
  have hTarget : call.target.isNone = call'.target.isNone := by
    rw [← Option.not_isSome, ← Option.not_isSome, isSome_eq_of_rel h.target]
  unfold isTopLevel
  rw [h.resolved, hTarget]

theorem receiver?_eq : call.receiver? = call'.receiver? :=
  bind_eq_of_rel h.target fun _ _ hTarget => hTarget.asIdentifier?_eq

theorem soleArgument? : Option.Rel Phrase.Reordered call.soleArgument? call'.soleArgument? := by
  unfold Call.soleArgument?
  have hArgs := h.args
  generalize call.args = args at hArgs
  generalize call'.args = args' at hArgs
  cases hArgs with
  | nil => exact .none
  | cons hFirst hRest =>
      cases hRest with
      | nil => exact hFirst.positional?
      | cons _ _ => exact .none

end Call.Reordered

/-- An occurrence and the same one with its phrases reordered. -/
inductive Occurrence.Reordered : Occurrence → Occurrence → Prop where
  | call {call call' : Call} (h : call.Reordered call') : Reordered (.call call) (.call call')
  | property (span : Span) {target target' : Expr} (name : Name) (h : target.Reordered target') :
      Reordered (.property span target name) (.property span target' name)
  | identifier (i : Identifier) : Reordered (.identifier i) (.identifier i)
  | locals {decl decl' : VariableDecl} (h : Phrase.Reordered decl decl') :
      Reordered (.locals decl) (.locals decl')

/-- Reordered occurrences in one scope. -/
def Occurrence.ReorderedInScope (a b : Occurrence × Scope) : Prop :=
  a.1.Reordered b.1 ∧ a.2 = b.2

/-- Of lists that match up to order either both have an only element or none has. -/
theorem rel_only? {α β : Type} {R : α → β → Prop} {l : List α} {m : List β}
    (h : MatchUpToOrder R l m) : Option.Rel R (only? l) (only? m) := by
  obtain ⟨k, hk, hPerm⟩ := h
  have hLength : m.length = l.length := hPerm.length_eq.symm.trans hk.length_eq.symm
  match l, m with
  | [], [] => exact .none
  | _ :: _ :: _, _ :: _ :: _ => exact .none
  | [a], [b] =>
      obtain rfl : k = [b] := List.perm_singleton.mp hPerm
      exact .some (List.forall₂_cons.mp hk).1
  | [], _ :: _ => cases hLength
  | _ :: _, [] => cases hLength
  | [_], _ :: _ :: _ => cases hLength
  | _ :: _ :: _, [_] => cases hLength

namespace Phrase.Reordered

variable {c : Category} {p q : Phrase c} {b b' : Body}

/-- What happens at a phrase is reordered with it. -/
theorem occurrence? (h : p.Reordered q) :
    Option.Rel Occurrence.Reordered p.occurrence? q.occurrence? := by
  cases h with
  | parts p f hParts =>
      cases p
      case call span target method typeArgs args nullAware resolved =>
        exact rel_map (Reordered.parts _ f hParts).call? fun _ _ hCall => .call hCall
      case property span target name nullAware =>
        exact .some (.property span name (hParts 0 ⟨target⟩ rfl))
      case identifier span name resolved => exact .some (.identifier _)
      case variableDecl span keywords type declared =>
        exact .some (.locals (.parts _ f hParts))
      all_goals exact .none
  | @permuted l m n inner perm => cases l <;> cases n <;> exact .none

theorem frame?_eq (h : p.Reordered q) : p.frame? = q.frame? := by
  cases h with
  | parts p f hParts => cases p <;> rfl
  | @permuted l m n inner perm => cases l <;> cases n <;> rfl

/-- The setup walk finds the same in the same scopes, perhaps in another order. -/
theorem ignoresOrder_setup : Walk.setup.IgnoresOrder Occurrence.ReorderedInScope where
  visit_reordered h scope := by
    show MatchUpToOrder _ (Option.toList _) (Option.toList _)
    exact MatchUpToOrder.of_rel (rel_map h.occurrence? fun _ _ hOccurrence => ⟨hOccurrence, rfl⟩)
  enter_reordered h scope := congrArg (·.elim scope scope.enter) h.frame?_eq
  sections_reordered _ _ := rfl
  visit_statements l scope := by cases l <;> rfl
  enter_statements l scope := by cases l <;> rfl

/-- The same closures are returned, perhaps in another order. -/
theorem returnedClosures (h : b.Reordered b') :
    MatchUpToOrder Reordered b.returnedClosures b'.returnedClosures := by
  obtain ⟨f, rfl, hParts⟩ := h.exists_mapParts (by simp)
  cases b with
  | body span modifier kind =>
      obtain ⟨g, hKind, hInner⟩ := (hParts 0 ⟨kind⟩ rfl).exists_mapParts (by simp)
      show MatchUpToOrder _ _ (Phrase.body span modifier (f 0 kind)).returnedClosures
      rw [hKind]
      cases kind with
      | blockBody inner =>
          exact (hInner 0 ⟨inner⟩ rfl).statements.filterMap fun _ _ hStmt => hStmt.returned?
      | exprBody expression =>
          exact MatchUpToOrder.of_rel (hInner 0 ⟨expression⟩ rfl).asFunction?
      | noBody => exact .nil

/-- The builder closure stays the builder closure wherever it is returned. -/
theorem builder? (h : b.Reordered b') : Option.Rel Reordered b.builder? b'.builder? := by
  rw [builder?_eq, builder?_eq]
  exact rel_only? h.returnedClosures

/-- The same happens in the same scopes, perhaps in another order. -/
theorem occurrences (h : b.Reordered b') :
    MatchUpToOrder Occurrence.ReorderedInScope b.occurrences b'.occurrences := by
  have hBuilder := isSome_eq_of_rel h.builder?
  obtain ⟨f, rfl, hParts⟩ := h.exists_mapParts (by simp)
  cases b with
  | body span modifier kind =>
      obtain ⟨g, hKind, hInner⟩ := (hParts 0 ⟨kind⟩ rfl).exists_mapParts (by simp)
      change _ = (Phrase.body span modifier (f 0 kind)).builder?.isSome at hBuilder
      show MatchUpToOrder _ _ (Phrase.body span modifier (f 0 kind)).occurrences
      rw [hKind] at hBuilder ⊢
      cases kind with
      | blockBody inner =>
          rw [Phrase.occurrences, hBuilder]
          refine (hInner 0 ⟨inner⟩ rfl).statements.flatMap fun stmt stmt' hStmt => ?_
          rw [isSome_eq_of_rel hStmt.returned?]
          exact ignoresOrder_setup.walk_phrase hStmt _
      | exprBody expression =>
          rw [Phrase.occurrences, hBuilder]
          exact ignoresOrder_setup.walk_phrase (hInner 0 ⟨expression⟩ rfl) _
      | noBody => exact .nil

end Phrase.Reordered

/-! ### Components -/

/-- A component and the same one with its members and its setup routine reordered. -/
structure Component.Reordered (c c' : Component) : Prop where
  decl : c.decl.Reordered c'.decl
  setup : Option.Rel MethodDecl.Reordered c.setup c'.setup

namespace Component.Reordered

variable {c c' : Component} (h : c.Reordered c')
include h

theorem name_eq : c.name = c'.name := by
  obtain ⟨decl, setup⟩ := c
  obtain ⟨decl', setup'⟩ := c'
  cases h.decl
  rfl

theorem body? : Option.Rel Phrase.Reordered c.body? c'.body? :=
  rel_map h.setup fun _ _ hSetup => by
    obtain ⟨-, hBody⟩ := hSetup
    exact hBody

/-- A single builder closure stays the single one. -/
theorem builder? : Option.Rel Phrase.Reordered c.builder? c'.builder? :=
  rel_bind h.body? fun _ _ hBody => hBody.builder?

/-- Outside of the builder closure the same happens in the same scopes. -/
theorem setupOccurrences :
    MatchUpToOrder Occurrence.ReorderedInScope c.setupOccurrences c'.setupOccurrences := by
  have hOccurrences :
      MatchUpToOrder Occurrence.ReorderedInScope c.occurrences c'.occurrences := by
    rw [occurrences_eq, occurrences_eq]
    exact rel_elim h.body? .nil fun _ _ hBody => hBody.occurrences
  exact hOccurrences.filter fun a b hScope => congrArg (!·.insideBuilder) hScope.2

end Component.Reordered
end SetupLint
