import SetupLint.Linter
import SetupLint.Proofs.SuppressionFilter

/-! Which findings are shown. A comment is asked for the rule of a finding and for the place where
the finding starts, so what becomes of a finding does not depend on the other findings. -/
namespace SetupLint.Linter

/-- Whether findings of a rule that start at an offset are shown for a source. Without a source
there are no comments. -/
def shows (source : Option String) (rule : String) (offset : UInt32) : Bool :=
  source.all fun text => !(Suppression.ofSource text).suppresses rule offset

/-- Finishing leaves out what the comments of the source suppress. -/
theorem finish_eq_filter (unit : CompilationUnit) (diagnostics : List Diagnostic) :
    finish unit diagnostics =
      diagnostics.filter fun d => shows unit.source d.rule d.span.start := by
  unfold finish shows
  cases unit.source with
  | none => simp
  | some source => exact (Suppression.ofSource source).filter_eq diagnostics

/-- A run shows the findings that no comment suppresses. -/
theorem diagnostics_lint (l : Linter) (unit : CompilationUnit) :
    (l.lint unit).diagnostics =
      (l.findings unit).filter fun d => shows unit.source d.rule d.span.start :=
  finish_eq_filter unit (l.findings unit)

end SetupLint.Linter
