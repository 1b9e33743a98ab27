import SetupLint.Linter
import SetupLint.Proofs.Roots

/-! Whose a finding is. Every finding of a rule has the code and the severity of the rule, and no
two rules have one code, so a finding tells which rule it comes from. -/
namespace SetupLint

/-- What holds of all that a walk gives at a phrase holds of all that it finds. -/
theorem Phrase.forall_mem_walk {γ α : Type} {P : α → Prop} {w : Walk γ α}
    (hVisit : ∀ {c : Category} (p : Phrase c) (context : γ), ∀ x ∈ w.visit p context, P x)
    {c : Category} (p : Phrase c) (context : γ) : ∀ x ∈ p.walk w context, P x := by
  induction p using induction_parts generalizing context with
  | step p ih =>
      intro x hx
      rw [walk_eq, List.mem_append, List.mem_flatMap] at hx
      rcases hx with hx | ⟨⟨part, i⟩, hPart, hx⟩
      · exact hVisit p context x hx
      · exact ih part (List.fst_mem_of_mem_zipIdx hPart) _ x hx

/-- What holds for all that a walk meets holds for all that it finds in a unit. -/
theorem CompilationUnit.forall_mem_walk {γ α : Type} {P : α → Prop} {w : Walk γ α}
    (hVisit : ∀ {c : Category} (p : Phrase c) (context : γ), ∀ x ∈ w.visit p context, P x)
    (unit : CompilationUnit) (context : γ) : ∀ x ∈ unit.walk w context, P x := by
  rw [unit.walk_eq_roots]
  intro x hx
  obtain ⟨root, -, hx⟩ := List.mem_flatMap.mp hx
  exact root.phrase.forall_mem_walk hVisit context x hx

namespace Rule

/-- A finding is one of a rule: it has its code and its severity. -/
def Reports (r : Rule) (d : Diagnostic) : Prop := d.rule = r.code ∧ d.severity = r.info.severity

/-- A finding of a rule has its code and its severity. -/
theorem reports_finding (r : Rule) (message : String) (span : Span) :
    r.Reports (r.finding message span) := ⟨rfl, rfl⟩

theorem reports_of_mem_checkComposition {catalogs : Catalogs} {component : Component} :
    ∀ d ∈ checkComposition catalogs component, conditionalComposition.Reports d := by
  intro d hd
  obtain ⟨⟨occurrence, scope⟩, -, hFinding⟩ := List.mem_filterMap.mp hd
  cases occurrence with
  | call c =>
      obtain ⟨-, h⟩ := Option.ite_none_right_eq_some.mp hFinding
      cases h
      exact reports_finding ..
  | _ => cases hFinding

theorem reports_of_mem_checkAsync {component : Component} :
    ∀ d ∈ checkAsync component, asyncSetup.Reports d := by
  intro d hd
  unfold checkAsync at hd
  split at hd
  · cases hd
  · split at hd
    · rw [List.mem_singleton.mp hd]
      exact ⟨rfl, rfl⟩
    · cases hd

theorem reports_of_mem_checkProps {catalogs : Catalogs} {component : Component} :
    ∀ d ∈ checkProps catalogs component, reactiveProps.Reports d := by
  intro d hd
  obtain ⟨⟨occurrence, scope⟩, -, hFinding⟩ := List.mem_filterMap.mp hd
  cases occurrence with
  | property span target name =>
      obtain ⟨-, h⟩ := Option.ite_none_right_eq_some.mp hFinding
      cases h
      exact reports_finding ..
  | identifier i =>
      obtain ⟨-, h⟩ := Option.ite_none_right_eq_some.mp hFinding
      cases h
      exact reports_finding ..
  | _ => cases hFinding

theorem reports_of_mem_checkLifecycle {catalogs : Catalogs} {component : Component} :
    ∀ d ∈ checkLifecycle catalogs component, resourceLifecycle.Reports d := by
  intro d hd
  obtain ⟨resource, -, rfl⟩ := List.mem_map.mp hd
  exact ⟨rfl, rfl⟩

theorem reports_of_mem_checkBuilder {component : Component} :
    ∀ d ∈ checkBuilder component, builderLogic.Reports d := by
  intro d hd
  unfold checkBuilder at hd
  split at hd
  · cases hd
  · obtain ⟨stmt, -, rfl⟩ := List.mem_map.mp hd
    exact reports_finding ..

theorem reports_of_mem_checkFields {component : Component} :
    ∀ d ∈ checkFields component, mutableField.Reports d := by
  intro d hd
  obtain ⟨field, -, rfl⟩ := List.mem_map.mp hd
  exact ⟨rfl, rfl⟩

theorem reports_of_mem_checkHeldValues {catalogs : Catalogs} {unit : CompilationUnit} :
    ∀ d ∈ checkHeldValues catalogs unit, heldValue.Reports d := by
  have hWrite : ∀ {held cascade span target}, ∀ d ∈ writeFinding? held cascade span target,
      heldValue.Reports d := by
    intro held cascade span target d hd
    obtain ⟨-, h⟩ := Option.ite_none_right_eq_some.mp hd
    cases h
    exact reports_finding ..
  refine unit.forall_mem_walk (P := heldValue.Reports) (fun p cascade d hd => ?_) false
  have hFinding : mutationAt? catalogs cascade p = some d := Option.mem_toList.mp hd
  unfold mutationAt? at hFinding
  split at hFinding
  · exact hWrite d hFinding
  · exact hWrite d hFinding
  · obtain ⟨call, -, h⟩ := Option.bind_eq_some_iff.mp hFinding
    obtain ⟨-, h⟩ := Option.ite_none_right_eq_some.mp h
    cases h
    exact reports_finding ..
  · cases hFinding

theorem reports_of_mem_checkDependencies {catalogs : Catalogs} {unit : CompilationUnit} :
    ∀ d ∈ checkDependencies catalogs unit, dependencyKey.Reports d := by
  refine unit.forall_mem_walk (P := dependencyKey.Reports) (fun p _ d hd => ?_) ()
  change d ∈ p.call?.elim [] (keyFindings catalogs) at hd
  cases hCall : p.call? with
  | none =>
      rw [hCall] at hd
      cases hd
  | some call =>
      rw [hCall, Option.elim_some, keyFindings] at hd
      split at hd
      · obtain ⟨type, -, h⟩ := List.mem_filterMap.mp hd
        obtain ⟨collision, -, rfl⟩ := Option.map_eq_some_iff.mp h
        exact reports_finding ..
      · cases hd

/-- A rule reports findings of its own only. -/
theorem reports_of_mem_findings {r : Rule} {catalogs : Catalogs} {unit : CompilationUnit} :
    ∀ d ∈ r.findings catalogs unit, r.Reports d := by
  have hComponent : ∀ component, ∀ d ∈ r.checkComponent catalogs component, r.Reports d := by
    intro component
    cases r with
    | conditionalComposition => exact reports_of_mem_checkComposition
    | asyncSetup => exact reports_of_mem_checkAsync
    | reactiveProps => exact reports_of_mem_checkProps
    | resourceLifecycle => exact reports_of_mem_checkLifecycle
    | builderLogic => exact reports_of_mem_checkBuilder
    | mutableField => exact reports_of_mem_checkFields
    | heldValue => exact fun d hd => absurd hd List.not_mem_nil
    | dependencyKey => exact fun d hd => absurd hd List.not_mem_nil
  have hUnit : ∀ d ∈ r.checkUnit catalogs unit, r.Reports d := by
    cases r with
    | heldValue => exact reports_of_mem_checkHeldValues
    | dependencyKey => exact reports_of_mem_checkDependencies
    | _ => exact fun d hd => absurd hd List.not_mem_nil
  intro d hd
  rcases List.mem_append.mp hd with hd | hd
  · obtain ⟨component, -, hd⟩ := List.mem_flatMap.mp hd
    exact hComponent component d hd
  · exact hUnit d hd

theorem mem_recommended (r : Rule) : r ∈ recommended := by
  cases r <;> decide

/-- No two rules have one code. -/
theorem code_injective {r s : Rule} (h : r.code = s.code) : r = s := by
  cases r <;> cases s <;> first | rfl | exact absurd h (by decide)

end Rule
end SetupLint
