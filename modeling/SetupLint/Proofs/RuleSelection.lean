import SetupLint.Config
import SetupLint.Proofs.RuleFindings

/-! Choosing rules is filtering the findings of a run of all rules. A linter runs each rule by
itself, every finding tells its rule, and a comment suppresses findings one by one, so it makes
no difference whether a rule does not run or its findings are left out afterwards. -/
namespace SetupLint

/-- A result with only the findings of the rules that are kept, counted anew. -/
def LintResult.keepRules (r : LintResult) (keep : String → Bool) : LintResult where
  file := r.file
  diagnostics := r.diagnostics.filter fun d => keep d.rule
  errorCount := (r.diagnostics.filter fun d => keep d.rule).countP (·.severity = .error)
  warningCount := (r.diagnostics.filter fun d => keep d.rule).countP (·.severity = .warning)

/-- The linter that runs all rules. -/
def Linter.full (catalogs : Catalogs) : Linter := { catalogs }

/-- Whether a rule has a code. -/
def Rule.IsCode (code : String) : Prop := ∃ r : Rule, r.code = code

/-- What a configuration says of the rule with a code: its flag, or else whether the preset has
the rule. -/
def LintConfig.wants (c : LintConfig) (code : String) : Bool :=
  (c.rules.lookup code).getD (decide (code ∈ c.preset.rules.map Rule.code))

/-- What is not an error is a warning. -/
theorem length_sub_countSeverity (diagnostics : List Diagnostic) :
    diagnostics.length - countSeverity .error diagnostics =
      diagnostics.countP (·.severity = .warning) := by
  have hOther : ∀ d : Diagnostic,
      decide (d.severity = .warning) = !decide (d.severity = .error) := by
    intro d
    cases d.severity <;> rfl
  have hLength := List.length_eq_countP_add_countP (fun d : Diagnostic => d.severity = .error)
    (l := diagnostics)
  simp only [hOther]
  unfold countSeverity
  simp only [decide_eq_true_eq, decide_not] at hLength
  omega

/-- Suppressing and choosing findings may change places. -/
theorem Suppression.filter_filter (s : Suppression) (diagnostics : List Diagnostic)
    (keep : Diagnostic → Bool) :
    s.filter (diagnostics.filter keep) = (s.filter diagnostics).filter keep := by
  unfold filter
  split
  · rfl
  · rw [List.filter_filter, List.filter_filter]
    exact List.filter_congr fun d _ => Bool.and_comm ..

namespace Rule

/-- The findings of some rules, of which those of the rules that are kept are the findings of
these rules. -/
theorem filter_flatMap_findings (rules : List Rule) (catalogs : Catalogs) (unit : CompilationUnit)
    (keep : String → Bool) :
    (rules.flatMap fun r => r.findings catalogs unit).filter (fun d => keep d.rule) =
      (rules.filter fun r => keep r.code).flatMap fun r => r.findings catalogs unit := by
  induction rules with
  | nil => rfl
  | cons r rules ih =>
      have hRule : ∀ d ∈ r.findings catalogs unit, keep d.rule = keep r.code :=
        fun d hd => congrArg keep (reports_of_mem_findings d hd).1
      rw [List.flatMap_cons, List.filter_append, ih, List.filter_congr hRule, List.filter_cons]
      cases keep r.code with
      | true => simp
      | false => simp

/-- A code is known iff some rule has it. -/
theorem isSome_find?_iff {code : String} :
    (find? recommended code).isSome = true ↔ IsCode code := by
  unfold find?
  rw [List.find?_isSome]
  constructor
  · rintro ⟨r, -, hCode⟩
    exact ⟨r, of_decide_eq_true hCode⟩
  · rintro ⟨r, hCode⟩
    exact ⟨r, mem_recommended r, decide_eq_true hCode⟩

instance (code : String) : Decidable (IsCode code) := decidable_of_iff _ isSome_find?_iff

/-- A selection gives the rules with the codes, or the first code that no rule has. -/
theorem select_spec (codes : List String) :
    ((∀ code ∈ codes, IsCode code) ∧
      select codes = .ok (recommended.filter fun r => codes.contains r.code)) ∨
    ∃ known unknown rest, codes = known ++ unknown :: rest ∧ (∀ code ∈ known, IsCode code) ∧
      ¬ IsCode unknown ∧ select codes = .error unknown := by
  have hKnown : ∀ code, ¬ (find? recommended code).isNone = true ↔ IsCode code := by
    intro code
    rw [← isSome_find?_iff, Option.isNone_iff_eq_none, Option.isSome_iff_ne_none]
  unfold select
  cases hFind : codes.find? fun code => (find? recommended code).isNone with
  | none =>
      refine Or.inl ⟨fun code hCode => (hKnown code).mp ?_, rfl⟩
      exact List.find?_eq_none.mp hFind code hCode
  | some unknown =>
      obtain ⟨hUnknown, known, rest, rfl, hBefore⟩ := List.find?_eq_some_iff_append.mp hFind
      refine Or.inr ⟨known, unknown, rest, rfl, fun code hCode => (hKnown code).mp ?_, ?_, rfl⟩
      · simpa [Option.isSome_iff_ne_none] using hBefore code hCode
      · rw [← hKnown]
        exact not_not_intro hUnknown

end Rule

namespace Linter

/-- A linter that runs the rules that are kept gives the findings of these rules in a run of all
rules. -/
theorem lint_eq_keepRules {l : Linter} {keep : String → Bool}
    (hEnabled : l.enabled = Rule.recommended.filter fun r => keep r.code) (unit : CompilationUnit) :
    l.lint unit = ((full l.catalogs).lint unit).keepRules keep := by
  have hFull : (full l.catalogs).enabled = Rule.recommended := rfl
  have hFindings : finish unit (l.findings unit) =
      (finish unit ((full l.catalogs).findings unit)).filter fun d => keep d.rule := by
    unfold findings
    rw [hEnabled, hFull, ← Rule.filter_flatMap_findings]
    unfold finish
    cases unit.source with
    | none => rfl
    | some source => exact Suppression.filter_filter ..
  unfold lint LintResult.ofDiagnostics LintResult.keepRules
  simp only [hFindings, length_sub_countSeverity]
  rfl

theorem enabled_of_rules (rules : List Rule) (catalogs : Catalogs) :
    ({ rules, catalogs } : Linter).enabled = rules := List.filter_eq_self.mpr fun _ _ => rfl

end Linter

/-- The rules that a configuration selects are those that it wants. -/
theorem LintConfig.enables_eq_wants (c : LintConfig) (r : Rule) : c.enables r = c.wants r.code := by
  have hPreset : (Rule.find? c.preset.rules r.code).isSome =
      decide (r.code ∈ c.preset.rules.map Rule.code) := by
    unfold Rule.find?
    rw [Bool.eq_iff_iff, List.find?_isSome, decide_eq_true_iff, List.mem_map]
    simp only [decide_eq_true_iff]
  unfold enables wants
  rw [hPreset]

/-- A code is chosen iff its rule runs. -/
theorem LintConfig.contains_enabledCodes (c : LintConfig) (r : Rule) :
    c.enabledCodes.contains r.code = c.enables r := by
  unfold enabledCodes
  rw [Bool.eq_iff_iff, List.contains_iff_mem, List.mem_map]
  constructor
  · rintro ⟨s, hs, hCode⟩
    rw [← Rule.code_injective hCode]
    exact (List.mem_filter.mp hs).2
  · intro h
    exact ⟨r, List.mem_filter.mpr ⟨Rule.mem_recommended r, h⟩, rfl⟩

theorem LintConfig.extendedCatalogs_eq (c : LintConfig) :
    c.extendedCatalogs = .extended c.catalogs := by
  unfold extendedCatalogs
  split
  · rename_i hEmpty
    rw [hEmpty]
    rfl
  · rfl

/-- A run of selected rules gives their findings in a run of all rules. -/
theorem Linter.lint_select (codes : List String) (catalogs : Catalogs) :
    match Rule.select codes with
    | .ok rules => (∀ code ∈ codes, Rule.IsCode code) ∧ ∀ unit : CompilationUnit,
        ({ rules, catalogs } : Linter).lint unit =
          ((full catalogs).lint unit).keepRules codes.contains
    | .error unknown => ¬ Rule.IsCode unknown ∧ ∃ known rest, codes = known ++ unknown :: rest ∧
        ∀ code ∈ known, Rule.IsCode code := by
  rcases Rule.select_spec codes with ⟨hCodes, hSelect⟩ | ⟨known, unknown, rest, hCodes, h⟩
  · rw [hSelect]
    exact ⟨hCodes, lint_eq_keepRules (enabled_of_rules ..)⟩
  · rw [h.2.2]
    exact ⟨h.2.1, known, rest, hCodes, h.1⟩

/-- Codes that no rule has do not matter among the codes of enabled rules. -/
theorem Linter.lint_known_codes (codes : List String) (catalogs : Catalogs)
    (unit : CompilationUnit) :
    ({ catalogs, codes := some codes } : Linter).lint unit =
      ({ catalogs, codes := some (codes.filter fun code => Rule.IsCode code) } : Linter).lint
        unit := by
  have hKnown : ({ catalogs, codes := some (codes.filter fun code => Rule.IsCode code) } :
      Linter).enabled = ({ catalogs, codes := some codes } : Linter).enabled := by
    refine List.filter_congr fun r _ => ?_
    show List.contains _ r.code = codes.contains r.code
    rw [Bool.eq_iff_iff, List.contains_iff_mem, List.contains_iff_mem, List.mem_filter,
      decide_eq_true_iff]
    exact and_iff_left ⟨r, rfl⟩
  unfold lint findings
  rw [hKnown]

/-- A configuration has a linter, and a run of it gives the findings of the rules that the
configuration wants. -/
theorem LintConfig.lint_linter (c : LintConfig) :
    ∃ l : Linter, c.linter = .ok l ∧ ∀ unit : CompilationUnit,
      l.lint unit = ((Linter.full (.extended c.catalogs)).lint unit).keepRules c.wants := by
  rcases Rule.select_spec c.enabledCodes with ⟨-, hSelect⟩ | ⟨_, unknown, _, hCodes, -, h, -⟩
  · refine ⟨_, by rw [linter, hSelect]; rfl, fun unit => ?_⟩
    rw [← c.extendedCatalogs_eq]
    refine Linter.lint_eq_keepRules ((Linter.enabled_of_rules ..).trans ?_) unit
    exact List.filter_congr fun r _ => by rw [c.contains_enabledCodes, c.enables_eq_wants]
  · -- the codes that a configuration selects are all codes of rules
    have hMem : unknown ∈ c.enabledCodes := by
      rw [hCodes]
      exact List.mem_append_right _ List.mem_cons_self
    obtain ⟨r, -, hCode⟩ := List.mem_map.mp hMem
    exact absurd ⟨r, hCode⟩ h

/-- However rules are chosen, a run gives what a run of all rules under the same catalogs gives
of these rules. A selection fails at the first code that no rule has, while among the codes of
enabled rules such codes do not matter. -/
theorem Linter.lint_chosen :
    (∀ (codes : List String) (catalogs : Catalogs),
      match Rule.select codes with
      | .ok rules => (∀ code ∈ codes, Rule.IsCode code) ∧ ∀ unit : CompilationUnit,
          ({ rules, catalogs } : Linter).lint unit =
            ((full catalogs).lint unit).keepRules codes.contains
      | .error unknown => ¬ Rule.IsCode unknown ∧ ∃ known rest, codes = known ++ unknown :: rest ∧
          ∀ code ∈ known, Rule.IsCode code) ∧
    (∀ (codes : List String) (catalogs : Catalogs) (unit : CompilationUnit),
      ({ catalogs, codes := some codes } : Linter).lint unit =
          ((full catalogs).lint unit).keepRules codes.contains ∧
        ({ catalogs, codes := some codes } : Linter).lint unit =
          ({ catalogs, codes := some (codes.filter fun code => Rule.IsCode code) } : Linter).lint
            unit) ∧
    ∀ config : LintConfig, ∃ l : Linter, config.linter = .ok l ∧ ∀ unit : CompilationUnit,
      l.lint unit = ((full (.extended config.catalogs)).lint unit).keepRules config.wants :=
  ⟨lint_select, fun codes catalogs unit =>
    ⟨lint_eq_keepRules rfl unit, lint_known_codes codes catalogs unit⟩, LintConfig.lint_linter⟩

end SetupLint
