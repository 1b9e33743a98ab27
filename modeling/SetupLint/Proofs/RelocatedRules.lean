import SetupLint.Proofs.ChangedRules

/-! Rules carry positions but do not decide by them. Moving every span of a unit moves the spans
of its findings, of their labels and of the edits of their fixes, and changes nothing else, even if
the move takes different offsets to the same one. -/
namespace SetupLint

variable (f : UInt32 → UInt32)

/-! A tree with other positions is a changed tree from which nothing is dropped. -/

/-- The change that moves offsets. -/
def TreeChange.moving (f : UInt32 → UInt32) : TreeChange := ⟨f, false, false⟩

/-- A phrase with other positions is a changed one from which nothing is dropped. -/
theorem Phrase.change_moving {c : Category} (p : Phrase c) :
    p.change (.moving f) = p.relocate f := by
  induction p <;> first
    | rfl
    | (conv_lhs => whnf
       conv_rhs => whnf
       congr 1)

theorem Member.change_moving (m : Member) : m.change (.moving f) = m.relocate f := by
  cases m with
  | field d =>
      simp only [change, relocate, FieldDecl.change, FieldDecl.relocate, Phrase.change_moving]
      rfl
  | method m =>
      simp only [change, relocate, MethodDecl.change, MethodDecl.relocate, Phrase.change_moving]
      rfl
  | constructor k =>
      simp only [change, relocate, ConstructorDecl.change, ConstructorDecl.relocate,
        Phrase.change_moving]
      rfl

theorem Declaration.change_moving (d : Declaration) : d.change (.moving f) = d.relocate f := by
  cases d with
  | «class» c =>
      have hMembers : c.members.map (Member.change (.moving f)) =
          c.members.map (Member.relocate f) :=
        List.map_congr_left fun m _ => m.change_moving f
      exact congrArg (fun members => Declaration.class { c.relocate f with members }) hMembers
  | function d => exact congrArg Declaration.function (d.change_moving f)
  | «variable» d => exact congrArg Declaration.variable (d.change_moving f)

theorem CompilationUnit.change_moving (u : CompilationUnit) :
    u.change (.moving f) = u.relocate f := by
  have hDeclarations : u.declarations.map (Declaration.change (.moving f)) =
      u.declarations.map (Declaration.relocate f) :=
    List.map_congr_left fun d _ => d.change_moving f
  exact congrArg (fun declarations => { u with declarations }) hDeclarations

/-- The findings of a rule move with the unit. -/
theorem Rule.findings_relocate (r : Rule) (catalogs : Catalogs) (u : CompilationUnit) :
    r.findings catalogs (u.relocate f) =
      (r.findings catalogs u).map (Diagnostic.relocate f) := by
  rw [← u.change_moving]
  exact findings_change (fun _ => rfl) catalogs u

/-- The result for a unit without source moves with the unit. -/
theorem Linter.lint_relocate (l : Linter) (u : CompilationUnit) (hSource : u.source = none) :
    l.lint (u.relocate f) = (l.lint u).relocate f := by
  have hFindings : l.findings (u.relocate f) =
      (l.findings u).map (Diagnostic.relocate f) := by
    unfold findings
    rw [List.map_flatMap]
    exact List.flatMap_congr fun r _ => r.findings_relocate f l.catalogs u
  have hFinish : ∀ (v : CompilationUnit) (diagnostics : List Diagnostic), v.source = none →
      finish v diagnostics = diagnostics := by
    intro v diagnostics hNone
    simp [finish, hNone]
  unfold lint
  rw [hFinish _ _ hSource, hFinish (u.relocate f) _ hSource, hFindings]
  exact LintResult.ofDiagnostics_relocate f u.path (l.findings u)

/-- A function literal at an offset, with a composition primitive in a conditional. -/
def watching (offset : UInt32) : Expr :=
  let span (start stop : UInt32) : Span := ⟨offset + start, offset + stop⟩
  let watch : Expr := .call (span 15 22) .none ⟨"watch", span 15 20⟩ [] .nil false none
  let choice : Stmt := .ifStmt (span 5 23) (.identifier (span 9 13) "late" none)
    (.expressionStmt (span 15 23) watch) .none
  .function (.closure (span 0 25) .nil
    (.body (span 3 25) .sync (.blockBody (.block (span 3 25) (.ofList [choice])))))

/-- A component with a field that is not final, which hands the same literal to a hook and to the
framework. -/
def twinUnit : CompilationUnit :=
  let mounted : Expr := .call ⟨60, 97⟩ .none ⟨"onMounted", ⟨60, 69⟩⟩ []
    (.ofList [.argument none (watching 70)]) false none
  let statements : List Stmt :=
    [.expressionStmt ⟨60, 98⟩ mounted, .returnStmt ⟨100, 133⟩ (.some (watching 107))]
  { path := "lib/twin.dart"
    declarations := [.class
      { span := ⟨0, 135⟩
        name := ⟨"Twin", ⟨6, 10⟩⟩
        superclass := some ⟨⟨19, 36⟩, "CompositionWidget", [], false⟩
        isAbstract := false
        members :=
          [.field
            { span := ⟨38, 46⟩
              keywords := []
              type := some ⟨⟨38, 41⟩, "int", [], false⟩
              declared := .ofList [.declarator ⟨42, 45⟩ ⟨"age", ⟨42, 45⟩⟩ .none] },
           .method
            { span := ⟨47, 134⟩
              name := ⟨"setup", ⟨47, 52⟩⟩
              kind := .method
              keywords := []
              returnType := none
              params := .nil
              body := .body ⟨55, 134⟩ .sync
                (.blockBody (.block ⟨55, 134⟩ (.ofList statements))) }] }] }

/-- With all offsets at zero nothing keeps the two literals apart but their places. The primitive
counts in the literal of the hook and not in the builder closure, the logic the other way round. -/
theorem lint_twinUnit :
    twinUnit.source = none ∧
      (watching 70).relocate (fun _ => 0) = (watching 107).relocate (fun _ => 0) ∧
      ({} : Linter).lint (twinUnit.relocate fun _ => 0) =
        (({} : Linter).lint twinUnit).relocate (fun _ => 0) ∧
      (({} : Linter).lint twinUnit).diagnostics.map (fun d => (d.rule, d.span)) =
        [("no-conditional-composition", ⟨85, 92⟩), ("no-logic-in-builder", ⟨112, 130⟩),
          ("no-mutable-fields", ⟨38, 46⟩)] :=
  ⟨rfl, rfl, Linter.lint_relocate (fun _ => 0) {} twinUnit rfl, by decide⟩

end SetupLint
