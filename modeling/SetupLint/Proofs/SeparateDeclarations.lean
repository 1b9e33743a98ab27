import SetupLint.Proofs.RuleSelection
import SetupLint.Proofs.ShownFindings

/-! Declarations are analysed one by one. A rule looks at the components of a unit or at the unit
as a whole, in both cases at one declaration after the other, and carries nothing over from one
to the next. So the findings in some declarations do not depend on the others. -/
namespace SetupLint

def LintResult.findingsOf (result : LintResult) (r : Rule) : List Diagnostic :=
  result.diagnostics.filter fun d => d.rule = r.code

namespace CompilationUnit

variable (path : String) (source : Option String) (first second : List Declaration)

/-- Each of two lists of declarations keeps its components. -/
theorem components_append (v : Vocabulary) :
    (CompilationUnit.mk path source (first ++ second)).components v =
      (CompilationUnit.mk path source first).components v ++
        (CompilationUnit.mk path source second).components v := by
  unfold components classes
  rw [List.filterMap_append, List.filterMap_append]

/-- A walk goes through two lists of declarations one after the other. -/
theorem walk_append {γ α : Type} (w : Walk γ α) (context : γ) :
    (CompilationUnit.mk path source (first ++ second)).walk w context =
      (CompilationUnit.mk path source first).walk w context ++
        (CompilationUnit.mk path source second).walk w context :=
  List.flatMap_append

end CompilationUnit

namespace Rule

/-- A rule looks at components or at units as a whole, but not at both. -/
theorem checkComponent_eq_nil_or_checkUnit_eq_nil (r : Rule) (catalogs : Catalogs) :
    (∀ component, r.checkComponent catalogs component = []) ∨
      ∀ unit, r.checkUnit catalogs unit = [] := by
  cases r with
  | heldValue => exact Or.inl fun _ => rfl
  | dependencyKey => exact Or.inl fun _ => rfl
  | _ => exact Or.inr fun _ => rfl

theorem checkUnit_append (r : Rule) (catalogs : Catalogs) (path : String) (source : Option String)
    (first second : List Declaration) :
    r.checkUnit catalogs ⟨path, source, first ++ second⟩ =
      r.checkUnit catalogs ⟨path, source, first⟩ ++
        r.checkUnit catalogs ⟨path, source, second⟩ := by
  cases r with
  | heldValue => exact CompilationUnit.walk_append path source first second _ _
  | dependencyKey => exact CompilationUnit.walk_append path source first second _ _
  | _ => rfl

/-- The findings of a rule in some declarations and others are those in the first and then those
in the second. -/
theorem findings_append (r : Rule) (catalogs : Catalogs) (path : String) (source : Option String)
    (first second : List Declaration) :
    r.findings catalogs ⟨path, source, first ++ second⟩ =
      r.findings catalogs ⟨path, source, first⟩ ++
        r.findings catalogs ⟨path, source, second⟩ := by
  unfold findings
  rw [CompilationUnit.components_append, List.flatMap_append, checkUnit_append]
  -- the parts of one of the two kinds are empty, so those of the other kind are neighbours
  rcases r.checkComponent_eq_nil_or_checkUnit_eq_nil catalogs with hComponent | hUnit
  · have hNone : ∀ components : List Component,
        components.flatMap (r.checkComponent catalogs) = [] :=
      fun components => List.flatMap_eq_nil_iff.mpr fun component _ => hComponent component
    simp only [hNone, List.nil_append]
  · simp only [hUnit, List.append_nil]

/-- Each rule is there once. -/
theorem filter_recommended (r : Rule) :
    (recommended.filter fun s => s.code = r.code) = [r] := by
  cases r <;> decide

end Rule

namespace Linter

variable (catalogs : Catalogs) (codes : Option (List String))

/-- Among the rules that run a rule comes once, or not at all. -/
theorem filter_enabled (r : Rule) :
    (({ catalogs, codes } : Linter).enabled.filter fun s => s.code = r.code) =
      if ({ catalogs, codes } : Linter).enables r.code then [r] else [] := by
  have hCode : ∀ s ∈ Rule.recommended,
      (decide (s.code = r.code) && ({ catalogs, codes } : Linter).enables s.code) =
        (decide (s.code = r.code) && ({ catalogs, codes } : Linter).enables r.code) := by
    intro s _
    by_cases h : s.code = r.code <;> simp [h]
  show (List.filter _ Rule.recommended).filter _ = _
  rw [List.filter_filter, List.filter_congr hCode]
  cases ({ catalogs, codes } : Linter).enables r.code with
  | true => simp [r.filter_recommended]
  | false => simp

/-- The findings of a rule in a run are those that are shown, if the rule runs. -/
theorem findingsOf_lint (r : Rule) (unit : CompilationUnit) :
    (({ catalogs, codes } : Linter).lint unit).findingsOf r =
      if ({ catalogs, codes } : Linter).enables r.code then
        (r.findings catalogs unit).filter fun d => shows unit.source d.rule d.span.start
      else [] := by
  have hFindings : (({ catalogs, codes } : Linter).findings unit).filter
        (fun d => decide (d.rule = r.code)) =
      if ({ catalogs, codes } : Linter).enables r.code then r.findings catalogs unit else [] := by
    unfold findings
    rw [Rule.filter_flatMap_findings _ _ _ fun code => decide (code = r.code), filter_enabled]
    split <;> simp
  unfold LintResult.findingsOf
  rw [diagnostics_lint, List.filter_comm, hFindings]
  split <;> rfl

/-- The findings of a rule in a unit with some declarations and others are those in the unit with
the first and then those in the unit with the second. -/
theorem lint_append (r : Rule) (path : String) (source : Option String)
    (first second : List Declaration) :
    let found (declarations : List Declaration) : List Diagnostic :=
      (({ catalogs, codes } : Linter).lint { path, source, declarations }).findingsOf r
    found (first ++ second) = found first ++ found second := by
  intro found
  show (Linter.lint _ _).findingsOf r = (Linter.lint _ _).findingsOf r ++
    (Linter.lint _ _).findingsOf r
  rw [findingsOf_lint, findingsOf_lint, findingsOf_lint, Rule.findings_append, List.filter_append]
  split <;> rfl

end Linter
end SetupLint
