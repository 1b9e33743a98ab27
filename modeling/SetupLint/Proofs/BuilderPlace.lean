import SetupLint.Component
import SetupLint.Proofs.Part

/-! The place of the builder closure. A setup body returns a closure where a `return` among the
statements of its block, or the expression after `=>`, is a function literal but for
parentheses. The builder closure is the only closure that is returned in this sense. -/
namespace SetupLint

namespace PlacedClosure

@[simp]
theorem under_address (way : Address) (placed : PlacedClosure) :
    (placed.under way).address = way ++ placed.address := rfl

@[simp]
theorem under_closure (way : Address) (placed : PlacedClosure) :
    (placed.under way).closure = placed.closure := rfl

theorem under_under (first second : Address) (placed : PlacedClosure) :
    (placed.under second).under first = placed.under (first ++ second) := by
  simp [under]

end PlacedClosure

namespace Phrase

/-- A function literal with nothing but parentheses around it. -/
inductive FunctionAt : Expr → PlacedClosure → Prop where
  | function (closure : Closure) : FunctionAt (.function closure) ⟨[0], closure⟩
  | paren {span : Span} {expression : Expr} {placed : PlacedClosure}
      (inner : FunctionAt expression placed) :
      FunctionAt (.paren span expression) (placed.under [0])

/-- The address of a statement, or of another element of a list, by its number from the list. -/
def statementAddress (i : Nat) : Address := List.replicate i 1 ++ [0]

/-- A closure that a setup body returns: by a `return` among the statements of its block, or
after `=>`. -/
inductive ReturnsAt : Body → PlacedClosure → Prop where
  | statement {span blockSpan stmtSpan : Span} {modifier : BodyModifier}
      {inner : Phrase (.list .stmt)} {i : Nat} {operand : Expr} {placed : PlacedClosure}
      (stmt : inner.toList[i]? = some (.returnStmt stmtSpan (.some operand)))
      (literal : FunctionAt operand placed) :
      ReturnsAt (.body span modifier (.blockBody (.block blockSpan inner)))
        (placed.under ([0, 0, 0] ++ (statementAddress i ++ [0, 0])))
  | arrow {span : Span} {modifier : BodyModifier} {expression : Expr} {placed : PlacedClosure}
      (literal : FunctionAt expression placed) :
      ReturnsAt (.body span modifier (.exprBody expression)) (placed.under [0, 0])

/-- The only closure that a setup body returns. -/
def IsBuilder (setup : Body) (placed : PlacedClosure) : Prop :=
  setup.ReturnsAt placed ∧ ∀ other, setup.ReturnsAt other → other = placed

/-- A function literal in parentheses is found, and nothing else is. -/
theorem functionAt_iff {e : Expr} {placed : PlacedClosure} :
    FunctionAt e placed ↔ e.placedFunction? = some placed := by
  constructor
  · intro h
    induction h with
    | function closure => rfl
    | paren inner ih =>
        obtain ⟨closure, hClosure, rfl⟩ := Option.map_eq_some_iff.mp ih
        exact Option.map_eq_some_iff.mpr ⟨closure, hClosure, rfl⟩
  · intro h
    induction e using induction_paren generalizing placed with
    | paren span expression ih =>
        obtain ⟨closure, hClosure, rfl⟩ := Option.map_eq_some_iff.mp h
        exact FunctionAt.paren (ih (Option.map_eq_some_iff.mpr ⟨closure, hClosure, rfl⟩))
    | bare e hParen =>
        obtain ⟨closure, hClosure, rfl⟩ := Option.map_eq_some_iff.mp h
        cases e <;> try cases hClosure
        case function.refl => exact FunctionAt.function _
        case paren => exact absurd rfl (hParen _ _)

/-- The address of a function literal leads to its closure. -/
theorem FunctionAt.at? {e : Expr} {placed : PlacedClosure} (h : FunctionAt e placed) :
    e.at? placed.address = some ⟨placed.closure⟩ := by
  induction h with
  | function closure => rfl
  | paren inner ih => exact ih

/-- A statement returns a closure iff it is a `return` with a function literal as its operand. -/
theorem placedReturn?_eq_some_iff {stmt : Stmt} {placed : PlacedClosure} :
    stmt.placedReturn? = some placed ↔
      ∃ (span : Span) (operand : Expr) (inner : PlacedClosure),
        stmt = .returnStmt span (.some operand) ∧ FunctionAt operand inner ∧
          placed = inner.under [0, 0] := by
  constructor
  · intro h
    unfold placedReturn? at h
    split at h
    · obtain ⟨inner, hInner, rfl⟩ := Option.map_eq_some_iff.mp h
      exact ⟨_, _, inner, rfl, functionAt_iff.mpr hInner, rfl⟩
    · cases h
  · rintro ⟨span, operand, inner, rfl, hInner, rfl⟩
    exact Option.map_eq_some_iff.mpr ⟨inner, functionAt_iff.mp hInner, rfl⟩

/-- A closure is listed by the number of the statement that returns it. -/
theorem mem_placedReturns_iff {statements : Phrase (.list .stmt)} {placed : PlacedClosure} :
    placed ∈ statements.placedReturns ↔
      ∃ (i : Nat) (stmt : Stmt) (inner : PlacedClosure), statements.toList[i]? = some stmt ∧
        stmt.placedReturn? = some inner ∧ placed = inner.under (statementAddress i) := by
  induction statements using induction_list generalizing placed with
  | nil => simp [placedReturns]
  | cons stmt rest ih =>
      simp only [placedReturns, List.mem_append, Option.mem_toList,
        Option.map_eq_some_iff, List.mem_map, toList_cons]
      constructor
      · rintro (⟨inner, hInner, rfl⟩ | ⟨later, hLater, rfl⟩)
        · exact ⟨0, stmt, inner, rfl, hInner, rfl⟩
        · obtain ⟨i, stmt', inner, hStmt, hInner, rfl⟩ := ih.mp hLater
          exact ⟨i + 1, stmt', inner, hStmt, hInner, PlacedClosure.under_under ..⟩
      · rintro ⟨i, stmt', inner, hStmt, hInner, rfl⟩
        cases i with
        | zero =>
            cases hStmt
            exact Or.inl ⟨inner, hInner, rfl⟩
        | succ i =>
            exact Or.inr ⟨_, ih.mpr ⟨i, stmt', inner, hStmt, hInner, rfl⟩,
              PlacedClosure.under_under ..⟩

/-- The candidates are the closures that a body returns. -/
theorem mem_candidates_iff {setup : Body} {placed : PlacedClosure} :
    placed ∈ setup.candidates ↔ setup.ReturnsAt placed := by
  constructor
  · intro h
    unfold candidates at h
    split at h
    · obtain ⟨inner, hInner, rfl⟩ := Option.map_eq_some_iff.mp (Option.mem_toList.mp h)
      exact ReturnsAt.arrow (functionAt_iff.mpr hInner)
    · obtain ⟨inner, hInner, rfl⟩ := List.mem_map.mp h
      obtain ⟨i, stmt, inner, hStmt, hReturn, rfl⟩ := mem_placedReturns_iff.mp hInner
      obtain ⟨span, operand, inner, rfl, hFunction, rfl⟩ := placedReturn?_eq_some_iff.mp hReturn
      rw [PlacedClosure.under_under, PlacedClosure.under_under, List.append_assoc]
      exact ReturnsAt.statement hStmt hFunction
    · cases h
  · intro h
    cases h with
    | statement hStmt hFunction =>
        refine List.mem_map.mpr ⟨_, mem_placedReturns_iff.mpr ⟨_, _, _, hStmt,
          placedReturn?_eq_some_iff.mpr ⟨_, _, _, rfl, hFunction, rfl⟩, rfl⟩, ?_⟩
        rw [PlacedClosure.under_under, PlacedClosure.under_under, List.append_assoc]
    | arrow hFunction =>
        exact Option.mem_toList.mpr
          (Option.map_eq_some_iff.mpr ⟨_, functionAt_iff.mp hFunction, rfl⟩)

/-- Placing closures in a larger phrase keeps them apart. -/
theorem nodup_map_under {l : List PlacedClosure} (way : Address) (h : l.Nodup) :
    (l.map (·.under way)).Nodup := by
  refine List.Pairwise.map _ (fun first second hne he => hne ?_) h
  cases first
  cases second
  simpa [PlacedClosure.under] using he

/-- No closure is returned twice at one place. -/
theorem nodup_placedReturns (statements : Phrase (.list .stmt)) :
    statements.placedReturns.Nodup := by
  induction statements using induction_list with
  | nil => exact List.nodup_nil
  | cons stmt rest ih =>
      rw [placedReturns, List.nodup_append]
      refine ⟨?_, nodup_map_under [1] ih, ?_⟩
      · cases stmt.placedReturn? <;> simp
      · intro first hFirst second hSecond he
        obtain ⟨inner, -, rfl⟩ := Option.map_eq_some_iff.mp (Option.mem_toList.mp hFirst)
        obtain ⟨later, -, rfl⟩ := List.mem_map.mp hSecond
        simp [PlacedClosure.under] at he

/-- No candidate is listed twice, as each stands at a place of its own. -/
theorem nodup_candidates (setup : Body) : setup.candidates.Nodup := by
  unfold candidates
  split
  · cases placedFunction? _ <;> simp
  · exact nodup_map_under _ (nodup_placedReturns _)
  · exact List.nodup_nil

theorem only?_eq_some_iff {α : Type} {l : List α} {a : α} : only? l = some a ↔ l = [a] := by
  unfold only?
  split <;> simp_all

/-- The builder closure is the only closure that is returned. -/
theorem placedBuilder?_eq_some_iff {setup : Body} {placed : PlacedClosure} :
    setup.placedBuilder? = some placed ↔ setup.IsBuilder placed := by
  rw [placedBuilder?, only?_eq_some_iff]
  constructor
  · intro h
    refine ⟨mem_candidates_iff.mp (by simp [h]), fun other hOther => ?_⟩
    have hMem := mem_candidates_iff.mpr hOther
    rw [h] at hMem
    exact List.mem_singleton.mp hMem
  · rintro ⟨hReturns, hOnly⟩
    have hAll : ∀ other ∈ setup.candidates, other = placed :=
      fun other h => hOnly other (mem_candidates_iff.mp h)
    have hMem := mem_candidates_iff.mpr hReturns
    have hNodup := nodup_candidates setup
    match h : setup.candidates with
    | [] => simp [h] at hMem
    | [first] => simp_all
    | first :: second :: rest =>
        simp [h, hAll first (by simp [h]), hAll second (by simp [h])] at hNodup

/-- The address of an element of a list leads to it. -/
theorem at?_statementAddress {c : Category} {l : Phrase (.list c)} {i : Nat} {p : Phrase c}
    (h : l.toList[i]? = some p) : l.at? (statementAddress i) = some ⟨p⟩ := by
  induction l using induction_list generalizing i with
  | nil => simp at h
  | cons head tail ih =>
      cases i with
      | zero =>
          cases h
          rfl
      | succ i => exact ih h

/-- At the place of a returned closure there is this closure. -/
theorem ReturnsAt.at? {setup : Body} {placed : PlacedClosure} (h : setup.ReturnsAt placed) :
    setup.at? placed.address = some ⟨placed.closure⟩ := by
  cases h with
  | @statement _ _ _ _ inner i operand placed hStmt hFunction =>
      have hOperand : inner.at? (statementAddress i ++ [0, 0]) = some ⟨operand⟩ := by
        rw [at?_append, at?_statementAddress hStmt]
        rfl
      have hClosure := at?_append inner (statementAddress i ++ [0, 0]) placed.address
      rw [hOperand, Option.bind_some, hFunction.at?] at hClosure
      rw [PlacedClosure.under_address, List.append_assoc]
      exact hClosure
  | arrow hFunction => exact hFunction.at?

end Phrase
end SetupLint
