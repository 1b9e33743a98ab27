import Mathlib.Data.List.Nodup
import SetupLint.Config
import SetupLint.Proofs.NodeSpans
import SetupLint.Proofs.RuleFindings
import SetupLint.Proofs.SeparateDeclarations
import SetupLint.Proofs.ShownFindings

/-! No finding is reported twice. A rule reports at different nodes of a unit, and different rules
report under different codes. So if the nodes of a unit stand at different places, no two findings
agree in their rule and their place. -/
namespace SetupLint

theorem flatMap_filterMap_sublist_flatMap {α β γ : Type} {f : α → Option β} {g : β → List γ}
    {h : α → List γ} (hSublist : ∀ a, ∀ b ∈ f a, (g b).Sublist (h a)) (l : List α) :
    ((l.filterMap f).flatMap g).Sublist (l.flatMap h) := by
  rw [List.filterMap_eq_flatMap_toList, List.flatMap_assoc]
  apply List.Sublist.flatMap_right
  intro a _
  cases hf : f a with
  | none => exact List.nil_sublist _
  | some b => simpa using hSublist a b hf

theorem map_filterMap_sublist_flatMap {α β γ : Type} {f : α → Option β} {g : β → γ}
    {h : α → List γ} (hMem : ∀ a, ∀ b ∈ f a, g b ∈ h a) (l : List α) :
    ((l.filterMap f).map g).Sublist (l.flatMap h) := by
  rw [List.map_eq_flatMap]
  apply flatMap_filterMap_sublist_flatMap
  exact fun a b hb => List.singleton_sublist.mpr (hMem a b hb)

def Occurrence.span : Occurrence → Span
  | .call c => c.span
  | .property span _ _ => span
  | .identifier i => i.span
  | .locals decl => decl.span

/-- What happens at a phrase is placed at the span of the phrase itself. -/
theorem Phrase.ownSpan?_of_occurrence? {c : Category} {p : Phrase c} {occurrence : Occurrence}
    (h : p.occurrence? = some occurrence) : p.ownSpan? = some occurrence.span := by
  cases p <;> cases h <;> rfl

namespace Component

/-- What happens in a setup routine happens at one phrase of its body after the other. -/
theorem map_fst_occurrences (c : Component) :
    c.occurrences.map Prod.fst =
      c.body?.elim [] fun body => body.nodes.filterMap fun node => node.phrase.occurrence? := by
  rw [occurrences_eq]
  cases c.body? with
  | none => rfl
  | some body =>
      show body.occurrences.map Prod.fst = _
      rw [← body.told_builderAddress?, Phrase.map_fst_told]
      rfl

/-- The setup routine of a component is a method of its class. -/
def OwnsSetup (c : Component) : Prop :=
  ∀ method, c.setup = some method → Member.method method ∈ c.decl.members

/-- The setup routine of a component is found among the members of its class. -/
theorem ownsSetup_of_mem_components {unit : CompilationUnit} {v : Vocabulary} {c : Component}
    (h : c ∈ unit.components v) : c.OwnsSetup := by
  obtain ⟨decl, -, hClass⟩ := List.mem_filterMap.mp h
  obtain ⟨-, hClass⟩ := Option.ite_none_right_eq_some.mp hClass
  cases hClass
  intro method hSetup
  obtain ⟨m, hMember, hMethod⟩ := List.mem_filterMap.mp (List.mem_of_find?_eq_some hSetup)
  cases m <;> cases hMethod
  exact hMember

variable {c : Component}

theorem OwnsSetup.member_sublist (h : c.OwnsSetup) :
    (c.setup.elim [] fun method => (Member.method method).spans).Sublist c.decl.spans := by
  cases hSetup : c.setup with
  | none => exact List.nil_sublist _
  | some method =>
      apply List.Sublist.trans _ (List.sublist_cons_self _ _)
      apply List.Sublist.trans _ (List.sublist_append_right _ _)
      exact sublist_flatMap_of_mem (f := Member.spans) (h method hSetup)

/-- The spans in the body of the setup routine are among those of the class. -/
theorem OwnsSetup.body_sublist (h : c.OwnsSetup) :
    (c.body?.elim [] Phrase.spans).Sublist c.decl.spans := by
  apply List.Sublist.trans _ h.member_sublist
  cases hSetup : c.setup with
  | none => simp [body?, hSetup]
  | some method =>
      apply List.Sublist.trans _ (List.sublist_cons_self _ _)
      apply List.Sublist.trans _ (List.sublist_append_right _ _)
      simp [body?, hSetup]

/-- Findings that stand where something happens in setup stand at different nodes. -/
theorem OwnsSetup.map_span_sublist (h : c.OwnsSetup) {f : Occurrence × Scope → Option Diagnostic}
    (hSpan : ∀ o, ∀ d ∈ f o, d.span = o.1.span) :
    ((c.setupOccurrences.filterMap f).map (·.span)).Sublist c.decl.spans := by
  have hOccurrences : ((c.occurrences.map Prod.fst).map Occurrence.span).Sublist
      (c.body?.elim [] Phrase.spans) := by
    rw [map_fst_occurrences]
    cases c.body? with
    | none => exact List.nil_sublist _
    | some body =>
        apply map_filterMap_sublist_flatMap
        intro node occurrence hOccurrence
        simp [Phrase.ownSpans, Phrase.ownSpan?_of_occurrence? hOccurrence]
  calc ((c.setupOccurrences.filterMap f).map (·.span)).Sublist
          (c.setupOccurrences.flatMap fun o => [o.1.span]) := by
        apply map_filterMap_sublist_flatMap
        intro o d hd
        simp [hSpan o d hd]
      List.Sublist _ ((c.occurrences.map Prod.fst).map Occurrence.span) := by
        rw [List.map_map, List.map_eq_flatMap]
        exact List.filter_sublist.flatMap _
      List.Sublist _ (c.body?.elim [] Phrase.spans) := hOccurrences
      List.Sublist _ c.decl.spans := h.body_sublist

end Component

namespace Rule

variable {catalogs : Catalogs} {c : Component}

/-- Each call is reported at its own span. -/
theorem checkComposition_sublist_spans (h : c.OwnsSetup) :
    ((checkComposition catalogs c).map (·.span)).Sublist c.decl.spans := by
  apply h.map_span_sublist
  rintro ⟨occurrence, scope⟩ d hd
  cases occurrence with
  | call call =>
      obtain ⟨-, hFinding⟩ := Option.ite_none_right_eq_some.mp hd
      cases hFinding
      rfl
  | _ => cases hd

/-- Each read is reported at its own span. -/
theorem checkProps_sublist_spans (h : c.OwnsSetup) :
    ((checkProps catalogs c).map (·.span)).Sublist c.decl.spans := by
  apply h.map_span_sublist
  rintro ⟨occurrence, scope⟩ d hd
  cases occurrence with
  | property span target name =>
      obtain ⟨-, hFinding⟩ := Option.ite_none_right_eq_some.mp hd
      cases hFinding
      rfl
  | identifier i =>
      obtain ⟨-, hFinding⟩ := Option.ite_none_right_eq_some.mp hd
      cases hFinding
      rfl
  | _ => cases hd

/-- The routine is reported once. -/
theorem checkAsync_sublist_spans (h : c.OwnsSetup) :
    ((checkAsync c).map (·.span)).Sublist c.decl.spans := by
  apply List.Sublist.trans _ h.member_sublist
  unfold checkAsync
  cases c.setup with
  | none => exact List.nil_sublist _
  | some method =>
      show List.Sublist (List.map _ (if method.body.isAsync then _ else _)) _
      split
      · exact List.singleton_sublist.mpr List.mem_cons_self
      · exact List.nil_sublist _

/-- The resources of a setup routine are variables that are declared in it. -/
theorem checkLifecycle_subperm_spans (h : c.OwnsSetup) :
    ((checkLifecycle catalogs c).map (·.span)).Subperm c.decl.spans := by
  let declared := (c.setupOccurrences.map (·.1)).flatMap Resource.declared
  have hResources : ((checkLifecycle catalogs c).map (·.span)).Sublist
      (declared.map Phrase.span) := by
    have hAll : ((declared.filterMap (Resource.ofDeclarator? catalogs)).map (·.span)).Sublist
        (declared.map Phrase.span) := by
      rw [List.map_eq_flatMap (f := Phrase.span)]
      apply map_filterMap_sublist_flatMap
      intro d resource hResource
      obtain ⟨init, -, hResource⟩ := Option.bind_eq_some_iff.mp hResource
      obtain ⟨type, -, hResource⟩ := Option.bind_eq_some_iff.mp hResource
      cases hResource
      exact List.mem_singleton_self _
    apply List.Sublist.trans _ hAll
    show (List.map _ (List.map _ (List.filter _ _))).Sublist _
    rw [List.map_map]
    exact List.filter_sublist.map _
  have hDeclared : (declared.map Phrase.span).Sublist
      (c.body?.elim [] Phrase.declaredSpans) := by
    have hBody : ((c.occurrences.map Prod.fst).flatMap Resource.declared).map Phrase.span =
        c.body?.elim [] Phrase.declaredSpans := by
      rw [Component.map_fst_occurrences]
      cases c.body? with
      | none => rfl
      | some body =>
          rw [Option.elim_some, Option.elim_some, List.filterMap_eq_flatMap_toList,
            List.flatMap_assoc, List.map_flatMap, Phrase.declaredSpans]
          apply List.flatMap_congr
          intro node _
          cases hOccurrence : node.phrase.occurrence? <;> simp [Phrase.declaredAt, hOccurrence]
    rw [← hBody]
    apply List.Sublist.map
    exact (List.filter_sublist.map _).flatMap _
  have hSpans : (c.body?.elim [] Phrase.declaredSpans).Subperm
      (c.body?.elim [] Phrase.spans) := by
    cases c.body? with
    | none => exact List.Subperm.refl _
    | some body =>
        exact (List.sublist_append_right _ _).subperm.trans body.declaredSpans_subperm_spans
  exact hResources.subperm.trans
    (hDeclared.subperm.trans (hSpans.trans h.body_sublist.subperm))

/-- The statements in the block of the builder closure stand at nodes of the setup body. -/
theorem block_statements_sublist {body : Body} {block : Block}
    (h : (body.builder?.bind fun builder => builder.functionBody.block?) = some block) :
    (block.statements.map Phrase.span).Sublist body.spans := by
  obtain ⟨closure, hBuilder, hBlock⟩ := Option.bind_eq_some_iff.mp h
  obtain ⟨placed, hPlaced, rfl⟩ := Option.map_eq_some_iff.mp hBuilder
  have hClosure := (Phrase.placedBuilder?_eq_some_iff.mp hPlaced).1.at?
  obtain ⟨address, closure⟩ := placed
  cases closure with
  | closure span params inner =>
      cases inner with
      | body bodySpan modifier kind =>
          cases kind <;> cases hBlock
          cases block with
          | block blockSpan statements =>
              have hStatements : body.at? (address ++ [1, 0, 0, 0]) = some ⟨statements⟩ := by
                rw [Phrase.at?_append, hClosure]
                rfl
              apply statements.map_span_sublist_spans.trans
              exact Phrase.spans_sublist_of_at? hStatements

theorem checkBuilder_sublist_spans (h : c.OwnsSetup) :
    ((checkBuilder c).map (·.span)).Sublist c.decl.spans := by
  apply List.Sublist.trans _ h.body_sublist
  unfold checkBuilder Component.builder?
  cases c.body? with
  | none => exact List.nil_sublist _
  | some body =>
      rw [Option.bind_some, Option.elim_some]
      cases hBlock : body.builder?.bind fun builder => builder.functionBody.block? with
      | none => exact List.nil_sublist _
      | some block =>
          have hStatements := block_statements_sublist hBlock
          apply List.Sublist.trans _ hStatements
          show (List.map _ (List.map _ (List.filter _ _))).Sublist _
          rw [List.map_map]
          exact List.filter_sublist.map _

/-- Each field is reported at its own span. -/
theorem checkFields_sublist_spans : ((checkFields c).map (·.span)).Sublist c.decl.spans := by
  apply List.Sublist.trans _ (List.sublist_cons_self _ _)
  apply List.Sublist.trans _ (List.sublist_append_right _ _)
  have hFields : ((c.decl.members.filterMap Member.asField?).map (·.span)).Sublist
      (c.decl.members.flatMap Member.spans) := by
    apply map_filterMap_sublist_flatMap
    intro member field hField
    cases member <;> cases hField
    exact List.mem_cons_self
  apply List.Sublist.trans _ hFields
  unfold checkFields
  rw [List.map_map]
  exact List.filter_sublist.map _

/-- Each change of a held value is reported at its own span. -/
theorem checkHeldValues_sublist_spans (unit : CompilationUnit) :
    ((checkHeldValues catalogs unit).map (·.span)).Sublist unit.spans := by
  have hWrite {held : String} {cascade : Bool} {span : Span} {target : Expr} {d : Diagnostic}
      (h : writeFinding? held cascade span target = some d) : d.span = span := by
    obtain ⟨-, hFinding⟩ := Option.ite_none_right_eq_some.mp h
    cases hFinding
    rfl
  apply unit.map_walk_sublist_spans
  intro c p cascade
  show (List.map _ (mutationAt? catalogs cascade p).toList).Sublist _
  cases hFinding : mutationAt? catalogs cascade p with
  | none => exact List.nil_sublist _
  | some d =>
      have hSpan : p.ownSpan? = some d.span := by
        unfold mutationAt? at hFinding
        split at hFinding
        · rw [hWrite hFinding]
          rfl
        · rw [hWrite hFinding]
          rfl
        · obtain ⟨call, hCall, hFinding⟩ := Option.bind_eq_some_iff.mp hFinding
          obtain ⟨-, hFinding⟩ := Option.ite_none_right_eq_some.mp hFinding
          cases hCall
          cases hFinding
          rfl
        · cases hFinding
      simp [Phrase.ownSpans, hSpan]

/-- Each key is reported at the span of its type argument. -/
theorem checkDependencies_sublist_spans (unit : CompilationUnit) :
    ((checkDependencies catalogs unit).map (·.span)).Sublist unit.spans := by
  apply unit.map_walk_sublist_spans
  intro c p _
  show (List.map _ (p.call?.elim [] (keyFindings catalogs))).Sublist _
  cases hCall : p.call? with
  | none => exact List.nil_sublist _
  | some call =>
      have hTypes : p.writtenTypes = call.typeArgs := by
        cases p <;> cases hCall
        rfl
      have hAll : ((call.typeArgs.filterMap (keyFinding? catalogs call)).map (·.span)).Sublist
          (TypeRef.spansAll call.typeArgs) := by
        rw [TypeRef.spansAll_eq]
        apply map_filterMap_sublist_flatMap
        intro type d hFinding
        obtain ⟨collision, -, rfl⟩ := Option.map_eq_some_iff.mp hFinding
        exact type.span_mem_spans
      rw [Phrase.ownSpans, hTypes, Option.elim_some, keyFindings]
      split
      · exact hAll.trans (List.sublist_append_right _ _)
      · exact List.nil_sublist _

/-- The findings of a rule in a component have the spans of different nodes. -/
theorem checkComponent_subperm_spans (r : Rule) (h : c.OwnsSetup) :
    ((r.checkComponent catalogs c).map (·.span)).Subperm c.decl.spans := by
  cases r with
  | conditionalComposition => exact (checkComposition_sublist_spans h).subperm
  | asyncSetup => exact (checkAsync_sublist_spans h).subperm
  | reactiveProps => exact (checkProps_sublist_spans h).subperm
  | resourceLifecycle => exact checkLifecycle_subperm_spans h
  | builderLogic => exact (checkBuilder_sublist_spans h).subperm
  | mutableField => exact checkFields_sublist_spans.subperm
  | heldValue => exact List.nil_subperm
  | dependencyKey => exact List.nil_subperm

/-- The findings of a rule in a unit as a whole have the spans of different nodes. -/
theorem checkUnit_subperm_spans (r : Rule) (unit : CompilationUnit) :
    ((r.checkUnit catalogs unit).map (·.span)).Subperm unit.spans := by
  cases r with
  | heldValue => exact (checkHeldValues_sublist_spans unit).subperm
  | dependencyKey => exact (checkDependencies_sublist_spans unit).subperm
  | _ => exact List.nil_subperm

/-- A rule reports at different nodes of a unit. -/
theorem findings_subperm_spans (r : Rule) (catalogs : Catalogs) (unit : CompilationUnit) :
    ((r.findings catalogs unit).map (·.span)).Subperm unit.spans := by
  have hDecls : ((unit.components catalogs.vocabulary).flatMap fun c => c.decl.spans).Sublist
      unit.spans := by
    have hClasses : (unit.classes.flatMap ClassDecl.spans).Sublist unit.spans := by
      apply flatMap_filterMap_sublist_flatMap
      intro d c hClass
      cases d <;> cases hClass
      exact List.Sublist.refl _
    apply List.Sublist.trans _ hClasses
    apply flatMap_filterMap_sublist_flatMap
    intro decl c hComponent
    obtain ⟨-, hComponent⟩ := Option.ite_none_right_eq_some.mp hComponent
    cases hComponent
    exact List.Sublist.refl _
  have hComponents : (((unit.components catalogs.vocabulary).flatMap
      (r.checkComponent catalogs)).map (·.span)).Subperm unit.spans := by
    rw [List.map_flatMap]
    apply List.Subperm.trans _ hDecls.subperm
    apply subperm_flatMap
    intro c hMem
    exact r.checkComponent_subperm_spans (Component.ownsSetup_of_mem_components hMem)
  unfold findings
  rcases r.checkComponent_eq_nil_or_checkUnit_eq_nil catalogs with hNone | hNone
  · have hNil : (unit.components catalogs.vocabulary).flatMap (r.checkComponent catalogs) = [] :=
      List.flatMap_eq_nil_iff.mpr fun c _ => hNone c
    rw [hNil, List.nil_append]
    exact r.checkUnit_subperm_spans unit
  · rw [hNone, List.append_nil]
    exact hComponents

theorem nodup_recommended : recommended.Nodup := by decide

/-- No selection has a rule twice. -/
theorem nodup_of_select {codes : List String} {rules : List Rule} (h : select codes = .ok rules) :
    rules.Nodup := by
  unfold select at h
  split at h <;> cases h
  exact nodup_recommended.filter _

end Rule

/-- A configuration does not run a rule twice. -/
theorem LintConfig.nodup_rules {config : LintConfig} {l : Linter} (h : config.linter = .ok l) :
    l.rules.Nodup := by
  unfold linter at h
  cases hSelect : Rule.select config.enabledCodes with
  | error unknown =>
      rw [hSelect] at h
      cases h
  | ok rules =>
      rw [hSelect] at h
      cases h
      exact Rule.nodup_of_select hSelect

namespace Linter

/-- The findings of a run are those of different rules, and those of one rule stand at different
nodes. -/
theorem nodup_findings {l : Linter} {unit : CompilationUnit} (hRules : l.rules.Nodup)
    (hSpans : unit.spans.Nodup) :
    ((l.findings unit).map fun d => (d.rule, d.span)).Nodup := by
  have hRule : ∀ r : Rule, ∀ d ∈ r.findings l.catalogs unit, d.rule = r.code :=
    fun r d hd => (Rule.reports_of_mem_findings d hd).1
  rw [findings, List.map_flatMap, List.nodup_flatMap]
  constructor
  · intro r _
    obtain ⟨spans, hPerm, hSublist⟩ := r.findings_subperm_spans l.catalogs unit
    have hNodup := hPerm.nodup (hSpans.sublist hSublist)
    apply List.Nodup.of_map Prod.snd
    rw [List.map_map]
    exact hNodup
  · apply (hRules.filter _).imp
    intro r s hNe pair hFirst hSecond
    obtain ⟨d, hd, rfl⟩ := List.mem_map.mp hFirst
    obtain ⟨e, he, hPair⟩ := List.mem_map.mp hSecond
    have hCodes : r.code = s.code :=
      calc r.code
        _ = d.rule := (hRule r d hd).symm
        _ = e.rule := (congrArg Prod.fst hPair).symm
        _ = s.code := hRule s e he
    exact hNe (Rule.code_injective hCodes)

/-- If the nodes of a unit stand at different places, no two findings of a run agree in their rule
and their place, and each of them stands at a node. This needs that no rule runs twice, which no
selection and no configuration leads to. -/
theorem lint_distinct {unit : CompilationUnit} (hSpans : unit.spans.Nodup) :
    (∀ l : Linter, l.rules.Nodup →
      ((l.lint unit).diagnostics.map fun d => (d.rule, d.span)).Nodup ∧
        ∀ d ∈ (l.lint unit).diagnostics, d.span ∈ unit.spans) ∧
      (∀ codes rules, Rule.select codes = .ok rules → rules.Nodup) ∧
      ∀ (config : LintConfig) l, config.linter = .ok l → l.rules.Nodup := by
  refine ⟨fun l hRules => ?_, fun _ _ => Rule.nodup_of_select, fun _ _ => LintConfig.nodup_rules⟩
  rw [diagnostics_lint]
  constructor
  · exact (nodup_findings hRules hSpans).sublist (List.filter_sublist.map _)
  · intro d hd
    obtain ⟨r, -, hFinding⟩ := List.mem_flatMap.mp (List.mem_filter.mp hd).1
    exact (r.findings_subperm_spans l.catalogs unit).subset (List.mem_map_of_mem hFinding)

/-- A component with a field that is not final and an asynchronous setup routine, which makes two
timers in one declaration and returns a builder closure with logic in it. -/
def feedUnit : CompilationUnit :=
  let timer (start : UInt32) (name : String) : Declarator :=
    .declarator ⟨start, start + 11⟩ ⟨name, ⟨start, start + 1⟩⟩
      (.some (.create ⟨start + 4, start + 11⟩ ⟨⟨start + 4, start + 9⟩, "Timer", [], false⟩ none
        .nil false))
  let logic : Stmt :=
    .expressionStmt ⟨130, 137⟩ (.call ⟨130, 136⟩ .none ⟨"work", ⟨130, 134⟩⟩ [] .nil false none)
  let builder : Closure :=
    .closure ⟨120, 160⟩ .nil
      (.body ⟨123, 160⟩ .sync (.blockBody (.block ⟨124, 160⟩ (.ofList [logic]))))
  let statements : List Stmt :=
    [.variableStmt (.variableDecl ⟨80, 110⟩ [] none (.ofList [timer 84 "a", timer 97 "b"])),
     .returnStmt ⟨112, 161⟩ (.some (.function builder))]
  { path := "lib/feed.dart"
    declarations := [.class
      { span := ⟨0, 170⟩
        name := ⟨"Feed", ⟨6, 10⟩⟩
        superclass := some ⟨⟨19, 36⟩, "CompositionWidget", [], false⟩
        isAbstract := false
        members :=
          [.field
            { span := ⟨40, 46⟩
              keywords := [⟨.varWord, ⟨40, 43⟩⟩]
              type := none
              declared := .ofList [.declarator ⟨44, 45⟩ ⟨"n", ⟨44, 45⟩⟩ .none] },
           .method
            { span := ⟨50, 165⟩
              name := ⟨"setup", ⟨57, 62⟩⟩
              kind := .method
              keywords := []
              returnType := none
              params := .nil
              body := .body ⟨64, 165⟩ .async
                (.blockBody (.block ⟨70, 165⟩ (.ofList statements))) }] }] }

/-- All rules run here, and five findings are told apart by their rules and their places. -/
theorem lint_feedUnit :
    feedUnit.spans.Nodup ∧ ({} : Linter).rules.Nodup ∧
      ((({} : Linter).lint feedUnit).diagnostics.map fun d => (d.rule, d.span)).Nodup ∧
      (({} : Linter).lint feedUnit).diagnostics.map (fun d => (d.rule, d.span)) =
        [("no-async-setup", ⟨50, 165⟩), ("controller-lifecycle", ⟨84, 95⟩),
          ("controller-lifecycle", ⟨97, 108⟩), ("no-logic-in-builder", ⟨130, 137⟩),
          ("no-mutable-fields", ⟨40, 46⟩)] :=
  have hSpans : feedUnit.spans.Nodup := by decide +kernel
  have hRules : ({} : Linter).rules.Nodup := Rule.nodup_recommended
  ⟨hSpans, hRules, ((lint_distinct hSpans).1 {} hRules).1, by decide +kernel⟩

end Linter

end SetupLint
