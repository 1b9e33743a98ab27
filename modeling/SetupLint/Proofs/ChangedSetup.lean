import SetupLint.Proofs.Changes
import SetupLint.Proofs.SetupPieces

/-! Setup routines that are changed. The builder closure is known by its place among the statements
of the routine, and parentheses neither happen nor hide it, so the same happens in the same scopes,
even where all positions fall together. -/
namespace SetupLint

variable (g : TreeChange)

def Occurrence.change : Occurrence → Occurrence
  | .call c => .call (c.change g)
  | .property span target name => .property (g.span span) (target.change g) (g.name name)
  | .identifier i => .identifier (i.change g)
  | .locals decl => .locals (decl.change g)

def PlacedClosure.change (placed : PlacedClosure) : PlacedClosure :=
  { placed with closure := placed.closure.change g }

def Component.change (c : Component) : Component :=
  ⟨c.decl.change g, c.setup.map (MethodDecl.change g)⟩

namespace Phrase

variable {c : Category}

/-- What happens at a phrase is changed with the phrase. -/
theorem occurrence?_change (p : Phrase c) (hParen : p.isParen = false) :
    (p.change g).occurrence? = p.occurrence?.map (Occurrence.change g) := by
  cases p <;> try first | rfl | cases hParen
  case call span target method typeArgs args nullAware resolved =>
    have hCall := call?_change g (.call span target method typeArgs args nullAware resolved) rfl
    exact congrArg (Option.map Occurrence.call) hCall

/-- A conditional or a loop stays one. -/
theorem frame?_change (p : Phrase c) (hParen : p.isParen = false) :
    (p.change g).frame? = p.frame? := by
  cases p <;> first | rfl | cases hParen

/-- The setup walk finds nothing at parentheses, and elsewhere what happens, changed. -/
theorem ignores_setup : Walk.setup.Ignores g (Prod.map (Occurrence.change g) id) where
  visit_paren := fun _ _ _ => rfl
  enter_paren := fun _ _ _ => rfl
  visit_change := by
    intro c p scope hParen
    show ((p.change g).occurrence?.map fun occurrence => (occurrence, scope)).toList =
      (p.occurrence?.map fun occurrence => (occurrence, scope)).toList.map _
    rw [occurrence?_change g p hParen]
    cases p.occurrence? <;> rfl
  enter_change := fun p scope hParen =>
    congrArg (·.elim scope scope.enter) (frame?_change g p hParen)
  sections_change := fun _ _ => rfl

/-! ### The builder closure -/

/-- The same closures are returned. -/
theorem returnedClosures_change (setup : Body) :
    (setup.change g).returnedClosures = setup.returnedClosures.map (change g) := by
  cases setup with
  | body span modifier kind =>
      cases kind with
      | blockBody inner =>
          show (inner.change g).statements.filterMap returned? =
            (inner.statements.filterMap returned?).map (change g)
          rw [statements_change, List.filterMap_map, List.map_filterMap]
          exact List.filterMap_congr fun stmt _ => returned?_change g stmt
      | exprBody expression =>
          show (expression.change g).asFunction?.toList =
            expression.asFunction?.toList.map (change g)
          rw [asFunction?_change, Option.toList_map]
      | noBody => rfl

/-- The builder closure is changed with the body. No other closure takes its place. -/
theorem builder?_change (setup : Body) :
    (setup.change g).builder? = setup.builder?.map (change g) := by
  rw [builder?_eq, builder?_eq, returnedClosures_change, only?_map]

/-- The same happens in the same scopes. -/
theorem occurrences_change (setup : Body) :
    (setup.change g).occurrences = setup.occurrences.map (Prod.map (Occurrence.change g) id) := by
  have hWalk := ignores_setup g
  have hBuilder : (setup.change g).builder?.isSome = setup.builder?.isSome := by
    rw [builder?_change, Option.isSome_map]
  cases setup with
  | body span modifier kind =>
      cases kind with
      | blockBody inner =>
          show ((inner.change g).statements.flatMap fun stmt => stmt.walk .setup (.start
            (((Phrase.body span modifier (.blockBody inner)).change g).builder?.isSome &&
              stmt.returned?.isSome))) = _
          rw [hBuilder, statements_change, List.flatMap_map, occurrences, List.map_flatMap]
          refine List.flatMap_congr fun stmt _ => ?_
          rw [returned?_change, Option.isSome_map]
          exact hWalk.walk_phrase stmt _
      | exprBody expression =>
          show (expression.change g).walk .setup (.start
            ((Phrase.body span modifier (.exprBody expression)).change g).builder?.isSome) = _
          rw [hBuilder, occurrences]
          exact hWalk.walk_phrase expression _
      | noBody => rfl

/-! ### Addresses

Parentheses count in addresses, so it takes a change that keeps them to keep the address of the
builder closure. -/

section Kept

variable {g} (hKept : g.dropsParens = false)
include hKept

theorem throughParens_change (e : Expr) : (e.change g).throughParens = e.throughParens := by
  induction e using induction_paren with
  | paren span e ih =>
      show (bif g.dropsParens then e.change g
        else .paren (g.span span) (e.change g)).throughParens = _
      rw [hKept]
      exact congrArg (0 :: ·) ih
  | bare e hBare =>
      cases e <;> try rfl
      exact absurd rfl (hBare _ _)

/-- The function literal stands where it stood, as parentheses are kept. -/
theorem placedFunction?_change (e : Expr) :
    (e.change g).placedFunction? = e.placedFunction?.map (PlacedClosure.change g) := by
  unfold placedFunction?
  rw [asFunction?_change, throughParens_change hKept, Option.map_map, Option.map_map]
  rfl

theorem placedReturn?_change (stmt : Stmt) :
    (stmt.change g).placedReturn? = stmt.placedReturn?.map (PlacedClosure.change g) := by
  cases stmt <;> try rfl
  case returnStmt span operand =>
    cases operand with
    | none => rfl
    | some operand =>
        show (operand.change g).placedFunction?.map _ = (operand.placedFunction?.map _).map _
        rw [placedFunction?_change hKept, Option.map_map, Option.map_map]
        rfl

theorem placedReturns_change (statements : Phrase (.list .stmt)) :
    (statements.change g).placedReturns =
      statements.placedReturns.map (PlacedClosure.change g) := by
  induction statements using induction_list with
  | nil => rfl
  | cons stmt rest ih =>
      show ((stmt.change g).placedReturn?.map (·.under [0])).toList ++
        (rest.change g).placedReturns.map (·.under [1]) = _
      rw [placedReturn?_change hKept, ih, placedReturns, List.map_append, Option.map_map,
        List.map_map, List.map_map, ← Option.toList_map, Option.map_map]
      rfl

/-- The same closures are returned from the same places. -/
theorem candidates_change (setup : Body) :
    (setup.change g).candidates = setup.candidates.map (PlacedClosure.change g) := by
  cases setup with
  | body span modifier kind =>
      cases kind with
      | blockBody inner =>
          cases inner with
          | block blockSpan statements =>
              show (statements.change g).placedReturns.map _ =
                (statements.placedReturns.map _).map _
              rw [placedReturns_change hKept, List.map_map, List.map_map]
              rfl
      | exprBody expression =>
          show ((expression.change g).placedFunction?.map _).toList =
            (expression.placedFunction?.map _).toList.map _
          rw [placedFunction?_change hKept, ← Option.toList_map, Option.map_map, Option.map_map]
          rfl
      | noBody => rfl

/-- The builder closure stands at the address where it stood. -/
theorem builderAddress?_change (setup : Body) :
    (setup.change g).builderAddress? = setup.builderAddress? := by
  unfold builderAddress? placedBuilder?
  rw [candidates_change hKept, only?_map, Option.map_map]
  rfl

end Kept

end Phrase

namespace Component

theorem body?_change (c : Component) : (c.change g).body? = c.body?.map (Phrase.change g) := by
  obtain ⟨decl, setup⟩ := c
  cases setup <;> rfl

theorem builder?_change (c : Component) :
    (c.change g).builder? = c.builder?.map (Phrase.change g) := by
  unfold builder?
  rw [body?_change]
  cases c.body? with
  | none => rfl
  | some setup => exact setup.builder?_change g

/-- What happens in a setup routine outside its builder closure changes with the routine. -/
theorem setupOccurrences_change (c : Component) :
    (c.change g).setupOccurrences =
      c.setupOccurrences.map (Prod.map (Occurrence.change g) id) := by
  have hOccurrences : (c.change g).occurrences =
      c.occurrences.map (Prod.map (Occurrence.change g) id) := by
    rw [occurrences_eq, occurrences_eq, body?_change]
    cases c.body? with
    | none => rfl
    | some setup => exact setup.occurrences_change g
  unfold setupOccurrences
  rw [hOccurrences, List.filter_map]
  rfl

end Component
end SetupLint
