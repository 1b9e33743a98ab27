import Mathlib.Data.List.Basic
import SetupLint.Proofs.SetupHooks

/-! What happens in a setup routine, piece by piece. A statement of the body is walked through
outside of the builder closure, but for the one that returns it, outside of whose closure
nothing happens. So a walk that hands its scope down needs no address. -/
namespace SetupLint

/-- The walk that collects what happens and where. -/
def Walk.setup : Walk Scope (Occurrence × Scope) where
  visit p scope := (p.occurrence?.map fun occurrence => (occurrence, scope)).toList
  enter p scope := p.frame?.elim scope scope.enter

/-- The scope at the start of a piece of a setup body, which may return the builder closure. -/
def Scope.start (isBuilder : Bool) : Scope :=
  if isBuilder then outermost.enter .builder else outermost

theorem only?_map {α β : Type} (f : α → β) (l : List α) : only? (l.map f) = (only? l).map f := by
  match l with
  | [] => rfl
  | [_] => rfl
  | _ :: _ :: _ => rfl

namespace Phrase

variable {c : Category}

/-- What happens in the pieces of a setup body. -/
def occurrences : Body → List (Occurrence × Scope)
  | setup@(.body _ _ (.exprBody expression)) =>
    expression.walk .setup (.start setup.builder?.isSome)
  | setup@(.body _ _ (.blockBody inner)) =>
    inner.statements.flatMap fun stmt =>
      stmt.walk .setup (.start (setup.builder?.isSome && stmt.returned?.isSome))
  | .body _ _ .noBody => []

/-- What a visitor is told, without the addresses. -/
def told (p : Phrase c) (way : Option Address) (scope : Scope) : List (Occurrence × Scope) :=
  (p.happenings way scope).map fun h => (h.occurrence, h.scope)

/-- A visitor is told what happens at a phrase before what happens in its parts. -/
theorem told_eq (p : Phrase c) (way : Option Address) (scope : Scope) :
    p.told way scope =
      (p.occurrence?.map fun occurrence => (occurrence, scope)).toList ++
        p.parts.zipIdx.flatMap fun part =>
          part.1.phrase.told (Address.onward? part.2 way) (p.innerScope way scope) := by
  unfold told
  rw [happenings_eq, List.map_append, List.map_flatMap]
  congr 1
  · cases p.occurrence? <;> rfl
  · simp only [List.map_map]
    rfl

/-- Around a single part a phrase that is neither an occurrence nor a construct adds nothing. -/
theorem told_of_parts {d : Category} {p : Phrase c} {part : Phrase d}
    (hParts : p.parts = [⟨part⟩]) (hOccurrence : p.occurrence? = none) {way : Option Address}
    (hFrame : p.frameAt? way = none) (scope : Scope) :
    p.told way scope = part.told (Address.onward? 0 way) scope := by
  rw [told_eq, hParts, hOccurrence]
  simp [innerScope, hFrame]

/-- A part is in the scope that its phrase makes, if it is a conditional or a loop. -/
theorem within_setup (p : Phrase c) (i : Nat) (scope : Scope) :
    Walk.setup.within p i scope = p.frame?.elim scope scope.enter := by
  unfold Walk.within
  split <;> rfl

theorem walk_setup_eq (p : Phrase c) (scope : Scope) :
    p.walk .setup scope =
      (p.occurrence?.map fun occurrence => (occurrence, scope)).toList ++
        p.parts.zipIdx.flatMap fun part =>
          part.1.phrase.walk .setup (p.frame?.elim scope scope.enter) := by
  rw [walk_eq]
  simp only [within_setup]
  rfl

/-- A phrase around one part adds nothing of its own. -/
theorem walk_of_parts {d : Category} {p : Phrase c} {part : Phrase d}
    (hParts : p.parts = [⟨part⟩]) (hOccurrence : p.occurrence? = none)
    (hFrame : p.frame? = none) (scope : Scope) :
    p.walk .setup scope = part.walk .setup scope := by
  rw [walk_setup_eq, hParts, hOccurrence, hFrame]
  simp

/-- Where no way leads to the builder closure the scope is handed down. -/
theorem told_none (p : Phrase c) (scope : Scope) : p.told none scope = p.walk .setup scope := by
  induction p using induction_parts generalizing scope with
  | step p ih =>
      have hInner : p.innerScope none scope = p.frame?.elim scope scope.enter := by
        cases p <;> rfl
      rw [told_eq, walk_setup_eq, hInner]
      congr 1
      refine List.flatMap_congr fun part hPart => ?_
      exact ih part.1 (List.fst_mem_of_mem_zipIdx hPart) _

/-- At the end of the way a closure is walked through inside of the builder closure. -/
theorem told_closure (closure : Closure) (scope : Scope) :
    closure.told (some []) scope = closure.walk .setup (scope.enter .builder) := by
  cases closure with
  | closure span params inner =>
      rw [told_eq, walk_setup_eq]
      simp only [parts, Address.onward?_nil, told_none]
      rfl

/-- A literal that is the builder closure is walked through inside of it. -/
theorem FunctionAt.told {e : Expr} {placed : PlacedClosure} (h : FunctionAt e placed)
    (scope : Scope) :
    e.told (some placed.address) scope = e.walk .setup (scope.enter .builder) := by
  induction h with
  | function closure =>
      rw [told_of_parts rfl rfl rfl, walk_of_parts rfl rfl rfl]
      exact told_closure closure scope
  | paren inner ih =>
      rw [told_of_parts rfl rfl rfl, walk_of_parts rfl rfl rfl]
      exact ih

/-- A statement that returns the builder closure is walked through inside of it. -/
theorem told_placedReturn? {stmt : Stmt} {placed : PlacedClosure}
    (h : stmt.placedReturn? = some placed) (scope : Scope) :
    stmt.told (some placed.address) scope = stmt.walk .setup (scope.enter .builder) := by
  obtain ⟨span, operand, inner, rfl, hFunction, rfl⟩ := placedReturn?_eq_some_iff.mp h
  rw [told_of_parts rfl rfl rfl, told_of_parts rfl rfl rfl, walk_of_parts rfl rfl rfl,
    walk_of_parts rfl rfl rfl]
  exact hFunction.told scope

theorem placedReturn?_map_closure (stmt : Stmt) :
    stmt.placedReturn?.map PlacedClosure.closure = stmt.returned? := by
  cases stmt <;> try rfl
  case returnStmt span operand =>
    cases operand with
    | none => rfl
    | some operand =>
        simp [placedReturn?, returned?, placedFunction?, Function.comp_def]

/-- The statements of a list are walked through one after another. -/
theorem walk_statements (statements : Phrase (.list .stmt)) (scope : Scope) :
    statements.walk .setup scope = statements.toList.flatMap (·.walk .setup scope) := by
  induction statements using induction_list with
  | nil => rfl
  | cons stmt rest ih =>
      rw [walk_setup_eq, toList_cons, List.flatMap_cons, ← ih]
      simp [parts, occurrence?, frame?]

/-- Of some statements the one that returns the builder closure is walked through inside of
it, and the others are walked through outside. -/
theorem told_placedReturns {statements : Phrase (.list .stmt)} {placed : PlacedClosure}
    (h : statements.placedReturns = [placed]) (scope : Scope) :
    statements.told (some placed.address) scope =
      statements.toList.flatMap fun stmt =>
        stmt.walk .setup (if stmt.returned?.isSome then scope.enter .builder else scope) := by
  induction statements using induction_list generalizing placed with
  | nil => cases h
  | cons stmt rest ih =>
      have hIsSome : stmt.returned?.isSome = stmt.placedReturn?.isSome := by
        rw [← placedReturn?_map_closure, Option.isSome_map]
      rw [told_eq, toList_cons, List.flatMap_cons, hIsSome]
      rw [placedReturns] at h
      cases hStmt : stmt.placedReturn? with
      | none =>
          -- the closure is returned by a statement of the rest
          rw [hStmt] at h
          obtain ⟨inner, hRest, rfl⟩ : ∃ inner, rest.placedReturns = [inner] ∧
              inner.under [1] = placed := by
            simpa [List.map_eq_singleton_iff] using h
          simp [parts, occurrence?, innerScope, frameAt?, frame?, Address.onward?, told_none,
            ih hRest]
      | some inner =>
          rw [hStmt] at h
          obtain ⟨rfl, hRest⟩ : inner.under [0] = placed ∧ rest.placedReturns = [] := by
            simpa using h
          have hOthers : ∀ other ∈ rest.toList, other.returned?.isSome = false := by
            intro other hOther
            rw [← placedReturn?_map_closure, Option.isSome_map]
            cases hReturn : other.placedReturn? with
            | none => rfl
            | some found =>
                obtain ⟨i, hi⟩ := List.mem_iff_getElem?.mp hOther
                have hMem := mem_placedReturns_iff.mpr ⟨i, other, found, hi, hReturn, rfl⟩
                rw [hRest] at hMem
                cases hMem
          have hRestWalk : (rest.toList.flatMap fun other =>
              other.walk .setup (if other.returned?.isSome then scope.enter .builder else scope)) =
              rest.walk .setup scope := by
            rw [walk_statements]
            exact List.flatMap_congr fun other hOther => by simp [hOthers other hOther]
          rw [hRestWalk]
          simp [parts, occurrence?, innerScope, frameAt?, frame?, Address.onward?, told_none,
            told_placedReturn? hStmt]

/-- The closures that a setup body returns. -/
def returnedClosures : Body → List Closure
  | .body _ _ (.exprBody expression) => expression.asFunction?.toList
  | .body _ _ (.blockBody inner) => inner.statements.filterMap returned?
  | .body _ _ .noBody => []

theorem placedReturns_map_closure (statements : Phrase (.list .stmt)) :
    statements.placedReturns.map PlacedClosure.closure = statements.toList.filterMap returned? := by
  induction statements using induction_list with
  | nil => rfl
  | cons stmt rest ih =>
      rw [placedReturns, toList_cons, List.filterMap_cons, ← ih, ← placedReturn?_map_closure]
      cases stmt.placedReturn? <;> simp [Function.comp_def]

/-- Without their places the candidates are the closures that a body returns. -/
theorem candidates_map_closure (setup : Body) :
    setup.candidates.map PlacedClosure.closure = setup.returnedClosures := by
  cases setup with
  | body span modifier kind =>
      cases kind with
      | blockBody inner =>
          cases inner with
          | block blockSpan statements =>
              exact (List.map_map ..).trans (placedReturns_map_closure statements)
      | exprBody expression =>
          show (expression.placedFunction?.map (·.under [0, 0])).toList.map PlacedClosure.closure =
            expression.asFunction?.toList
          rw [placedFunction?]
          cases expression.asFunction? <;> rfl
      | noBody => rfl

/-- The builder closure is the closure that a setup body returns, if there is only one. -/
theorem builder?_eq (setup : Body) : setup.builder? = only? setup.returnedClosures := by
  rw [builder?, placedBuilder?, ← candidates_map_closure, only?_map]

/-- A recorder has heard what happens, the last happening first. -/
theorem hear_recorder (happenings : List Happening) (found : List (Occurrence × Scope)) :
    SetupVisitor.hear (fun occurrence scope found => (occurrence, scope) :: found) found
        happenings =
      (happenings.map fun h => (h.occurrence, h.scope)).reverse ++ found := by
  induction happenings generalizing found with
  | nil => rfl
  | cons h rest ih =>
      unfold SetupVisitor.hear at ih ⊢
      rw [List.foldl_cons, ih, List.map_cons, List.reverse_cons, List.append_assoc]
      rfl

/-- An `=>` body is walked through inside of the builder closure iff its expression is one. -/
theorem told_exprBody (span : Span) (modifier : BodyModifier) (e : Expr) :
    (Phrase.body span modifier (.exprBody e)).told
        (Phrase.body span modifier (.exprBody e)).builderAddress? .outermost =
      (Phrase.body span modifier (.exprBody e)).occurrences := by
  have hBuilder : (Phrase.body span modifier (.exprBody e)).placedBuilder? =
      e.placedFunction?.map (·.under [0, 0]) := by
    unfold placedBuilder?
    rw [candidates]
    cases e.placedFunction? <;> rfl
  rw [occurrences, builderAddress?, builder?, hBuilder]
  cases hFunction : e.placedFunction? with
  | none =>
      show told _ none .outermost = e.walk .setup .outermost
      rw [told_of_parts rfl rfl rfl, told_of_parts rfl rfl rfl]
      exact told_none e .outermost
  | some placed =>
      show told _ (some (0 :: 0 :: placed.address)) .outermost =
        e.walk .setup (Scope.outermost.enter .builder)
      rw [told_of_parts rfl rfl rfl, told_of_parts rfl rfl rfl]
      exact (functionAt_iff.mpr hFunction).told .outermost

/-- A block is walked through statement by statement. -/
theorem told_blockBody (span blockSpan : Span) (modifier : BodyModifier)
    (statements : Phrase (.list .stmt)) :
    (Phrase.body span modifier (.blockBody (.block blockSpan statements))).told
        (Phrase.body span modifier (.blockBody (.block blockSpan statements))).builderAddress?
        .outermost =
      (Phrase.body span modifier (.blockBody (.block blockSpan statements))).occurrences := by
  rw [occurrences, builderAddress?, builder?]
  cases hBuilder : (Phrase.body span modifier
      (.blockBody (.block blockSpan statements))).placedBuilder? with
  | none =>
      show told _ none .outermost =
        List.flatMap (fun stmt => stmt.walk .setup .outermost) statements.toList
      rw [told_of_parts rfl rfl rfl, told_of_parts rfl rfl rfl, told_of_parts rfl rfl rfl,
        ← walk_statements]
      exact told_none statements .outermost
  | some builder =>
      rw [placedBuilder?, only?_eq_some_iff, candidates] at hBuilder
      obtain ⟨placed, hReturns, rfl⟩ := List.map_eq_singleton_iff.mp hBuilder
      show told _ (some (0 :: 0 :: 0 :: placed.address)) .outermost =
        List.flatMap (fun stmt => stmt.walk .setup (.start stmt.returned?.isSome)) statements.toList
      rw [told_of_parts rfl rfl rfl, told_of_parts rfl rfl rfl, told_of_parts rfl rfl rfl]
      exact told_placedReturns hReturns .outermost

/-- A setup body is walked through piece by piece. -/
theorem told_builderAddress? (setup : Body) :
    setup.told setup.builderAddress? .outermost = setup.occurrences := by
  cases setup with
  | body span modifier kind =>
      cases kind with
      | blockBody inner =>
          cases inner with
          | block blockSpan statements => exact told_blockBody span blockSpan modifier statements
      | exprBody e => exact told_exprBody span modifier e
      | noBody => rfl

end Phrase

/-- What happens in the setup routine of a component happens in the pieces of its body. -/
theorem Component.occurrences_eq (c : Component) :
    c.occurrences = c.body?.elim [] Phrase.occurrences := by
  unfold occurrences walkSetup
  cases c.body? with
  | none => rfl
  | some setup =>
      show List.reverse (setup.walkSetup _ []) = setup.occurrences
      rw [Phrase.walkSetup_eq_hear, Phrase.hear_recorder, List.append_nil, List.reverse_reverse]
      exact setup.told_builderAddress?

end SetupLint
