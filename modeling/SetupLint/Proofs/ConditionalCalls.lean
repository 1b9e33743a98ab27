import SetupLint.Linter
import SetupLint.Proofs.SetupPlaces

/-! Composition primitives that are called inside conditionals and loops, from the unit down to the
call. Which class is a component, which method sets it up, which closure builds it, what is around
the call and what the call is of: each is told without a search, a stack or a walk. -/
namespace SetupLint

/-- A plain method of the instances with a name. Getters, setters and operators are none. -/
structure MethodDecl.IsPlain (m : MethodDecl) (name : String) : Prop where
  ofInstances : ∀ keyword ∈ m.keywords, keyword.kind ≠ .staticWord
  plain : m.kind = .method
  named : m.name.text = name

namespace CompilationUnit

/-- The declaration with a number is a class that directly extends the host base, and its setup
routine, the first of its methods that may be one, has this body. -/
inductive HasSetup (u : CompilationUnit) (v : Vocabulary) (i : Nat) : Body → Prop where
  | intro {decl : ClassDecl} {type : TypeRef} {before after : List Member} {method : MethodDecl}
      (component : u.declarations[i]? = some (.class decl))
      (superclass : decl.superclass = some type) (host : type.simpleName = v.hostBase)
      (members : decl.members = before ++ .method method :: after)
      (setup : method.IsPlain v.setupMethod)
      (first : ∀ other, .method other ∈ before → ¬ other.IsPlain v.setupMethod) :
      HasSetup u v i method.body

end CompilationUnit

/-- A composition primitive is called at an address of a setup body, outside of the builder closure
and inside a conditional or a loop, and this is the finding for it. -/
inductive Phrase.ConditionalCall (setup : Body) (catalogs : Catalogs) (address : Address) :
    Diagnostic → Prop where
  | intro {span : Span} {target : Phrase (.option .expr)} {method : Name}
      {typeArgs : List TypeRef} {args : Phrase (.list .argument)} {nullAware : Bool}
      {resolved : Option Resolution}
      (call : setup.at? address =
        some ⟨.call span target method typeArgs args nullAware resolved⟩)
      (outside : ¬ setup.InsideBuilder address) (inside : setup.InsideConstruct address)
      (primitive : method.text ∈ catalogs.compositionPrimitives.entries)
      (topLevel : CallsTopLevel target resolved) :
      ConditionalCall setup catalogs address
        { rule := "no-conditional-composition"
          severity := .error
          message := mention method.text ++ " must not be called inside a conditional or loop"
          span := span
          help := some ("Call composition APIs unconditionally at the top level of setup and " ++
            "branch on the values they hold") }

/-- The calls of composition primitives inside conditionals and loops in a unit. An address starts
with the number of the declaration and goes on in the body of its setup routine. -/
inductive CompilationUnit.ConditionalCall (u : CompilationUnit) (catalogs : Catalogs) :
    Address → Diagnostic → Prop where
  | intro {i : Nat} {setup : Body} {address : Address} {d : Diagnostic}
      (routine : u.HasSetup catalogs.vocabulary i setup)
      (call : setup.ConditionalCall catalogs address d) :
      ConditionalCall u catalogs (i :: address) d

/-! ### Setup routines -/

/-- A plain method is neither static nor an accessor or an operator. -/
theorem MethodDecl.isPlain_iff {m : MethodDecl} {name : String} :
    m.IsPlain name ↔ (!m.isStatic && m.kind = .method && m.name.text = name) = true := by
  have hStatic : (!m.isStatic) = true ↔ ∀ keyword ∈ m.keywords, keyword.kind ≠ .staticWord := by
    simp [isStatic, Keyword.find?]
  simp only [Bool.and_eq_true, decide_eq_true_iff, hStatic]
  exact ⟨fun h => ⟨⟨h.ofInstances, h.plain⟩, h.named⟩, fun h => ⟨h.1.1, h.1.2, h.2⟩⟩

/-- The setup routine is the first method of the class that may be one. -/
theorem ClassDecl.instanceMethod?_eq_some_iff {c : ClassDecl} {name : String}
    {method : MethodDecl} :
    c.instanceMethod? name = some method ↔
      method.IsPlain name ∧ ∃ before after, c.members = before ++ .method method :: after ∧
        ∀ other, .method other ∈ before → ¬ other.IsPlain name := by
  have hMember : ∀ m : Member, m.asMethod? = some method ↔ m = .method method := by
    intro m
    cases m <;> simp [Member.asMethod?]
  have hBefore : ∀ before : List Member,
      (∀ m ∈ before, (!m.asMethod?.any fun m => !m.isStatic && m.kind = .method &&
        m.name.text = name) = true) ↔
      ∀ other, .method other ∈ before → ¬ other.IsPlain name := by
    intro before
    simp only [MethodDecl.isPlain_iff, Bool.not_eq_true, Bool.not_eq_true']
    constructor
    · intro h other hOther
      exact h _ hOther
    · intro h m hm
      cases m with
      | method other => exact h other hm
      | _ => rfl
  rw [instanceMethod?, methods, List.find?_filterMap, Option.bind_eq_some_iff]
  simp only [hMember, exists_eq_right, List.find?_eq_some_iff_append, hBefore]
  exact and_congr_left' MethodDecl.isPlain_iff.symm

/-- The body of the setup routine of a declaration that is a component. -/
def Declaration.setup? (v : Vocabulary) (d : Declaration) : Option Body :=
  (d.asClass?.bind (Component.ofClass? v)).bind Component.body?

/-- The setup routine of a declaration is the one that the linter looks at. -/
theorem CompilationUnit.hasSetup_iff {u : CompilationUnit} {v : Vocabulary} {i : Nat}
    {setup : Body} :
    u.HasSetup v i setup ↔ ∃ d, u.declarations[i]? = some d ∧ d.setup? v = some setup := by
  constructor
  · rintro ⟨component, superclass, host, members, setup, first⟩
    have hSetup := ClassDecl.instanceMethod?_eq_some_iff.mpr ⟨setup, _, _, members, first⟩
    refine ⟨_, component, ?_⟩
    simp [Declaration.setup?, Declaration.asClass?, Component.ofClass?, ClassDecl.superclassName,
      Component.body?, superclass, host, hSetup]
  · rintro ⟨d, hDecl, hSetup⟩
    obtain ⟨c, hComponent, hBody⟩ := Option.bind_eq_some_iff.mp hSetup
    obtain ⟨decl, hClass, hComponent⟩ := Option.bind_eq_some_iff.mp hComponent
    obtain ⟨hHost, hComponent⟩ := Option.ite_none_right_eq_some.mp hComponent
    obtain ⟨type, superclass, host⟩ := Option.map_eq_some_iff.mp hHost
    cases hComponent
    obtain ⟨method, hMethod, rfl⟩ := Option.map_eq_some_iff.mp hBody
    obtain ⟨setup, before, after, members, first⟩ :=
      ClassDecl.instanceMethod?_eq_some_iff.mp hMethod
    cases d <;> cases hClass
    exact .intro hDecl superclass host members setup first

/-! ### Calls -/

/-- What the rule finds where something happens. -/
def Rule.conditionalOccurrence? (catalogs : Catalogs) : Occurrence × Scope → Option Diagnostic
  | (.call call, scope) => conditionalCall? catalogs call scope
  | _ => none

/-- What the rule finds in a setup body are the conditional calls in it. -/
theorem Phrase.mem_conditionalFindings_iff {setup : Body} {catalogs : Catalogs} {address : Address}
    {d : Diagnostic} :
    (address, d) ∈ setup.outerFindings (Rule.conditionalOccurrence? catalogs) ↔
      setup.ConditionalCall catalogs address d := by
  rw [mem_outerFindings_iff]
  constructor
  · rintro ⟨occurrence, ⟨⟨⟨p⟩, hNode, hOccurs⟩, outside⟩, hFinding⟩
    cases hOccurs <;> try cases hFinding
    case call =>
      obtain ⟨hCall, hFinding⟩ := Option.ite_none_right_eq_some.mp hFinding
      cases hFinding
      simp only [Bool.and_eq_true] at hCall
      obtain ⟨⟨hConditional, hPrimitive⟩, hTopLevel⟩ := hCall
      exact .intro hNode outside
        ((isConditional_setupScope (Option.isSome_iff_exists.mpr ⟨_, hNode⟩)).mp hConditional)
        (of_decide_eq_true hPrimitive) ((callsTopLevel_iff rfl).mpr hTopLevel)
  · rintro ⟨call, outside, inside, primitive, topLevel⟩
    refine ⟨_, ⟨⟨_, call, .call⟩, outside⟩, Option.ite_none_right_eq_some.mpr ⟨?_, rfl⟩⟩
    have hConditional :=
      (isConditional_setupScope (Option.isSome_iff_exists.mpr ⟨_, call⟩)).mpr inside
    simp only [Bool.and_eq_true]
    exact ⟨⟨hConditional, decide_eq_true primitive⟩, (callsTopLevel_iff rfl).mp topLevel⟩

/-! ### The findings -/

/-- The findings in the setup routine of a declaration with their addresses. -/
def Declaration.conditionalFindings (catalogs : Catalogs) (d : Declaration) :
    List (Address × Diagnostic) :=
  (d.setup? catalogs.vocabulary).elim [] fun setup =>
    setup.outerFindings (Rule.conditionalOccurrence? catalogs)

/-- What the rule finds in a declaration are the conditional calls in its setup routine. -/
theorem Declaration.mem_conditionalFindings_iff {catalogs : Catalogs} {decl : Declaration}
    {address : Address} {d : Diagnostic} :
    (address, d) ∈ decl.conditionalFindings catalogs ↔
      ∃ setup, decl.setup? catalogs.vocabulary = some setup ∧
        setup.ConditionalCall catalogs address d := by
  unfold conditionalFindings
  cases decl.setup? catalogs.vocabulary with
  | none => simp
  | some setup => simp [Phrase.mem_conditionalFindings_iff]

/-- The findings in a declaration are in the order of the source. -/
theorem Declaration.pairwise_conditionalFindings (catalogs : Catalogs) (decl : Declaration) :
    ((decl.conditionalFindings catalogs).map Prod.fst).Pairwise (· < ·) := by
  unfold conditionalFindings
  cases decl.setup? catalogs.vocabulary with
  | none => exact List.Pairwise.nil
  | some setup => exact setup.pairwise_outerFindings _

/-- A declaration that is no component has no findings. -/
theorem Declaration.map_snd_conditionalFindings (catalogs : Catalogs) (decl : Declaration) :
    (decl.conditionalFindings catalogs).map Prod.snd =
      (decl.asClass?.bind (Component.ofClass? catalogs.vocabulary)).elim []
        (Rule.checkComposition catalogs) := by
  unfold conditionalFindings setup?
  cases decl.asClass?.bind (Component.ofClass? catalogs.vocabulary) with
  | none => rfl
  | some c =>
      have hCheck : Rule.checkComposition catalogs c =
          c.setupOccurrences.filterMap (Rule.conditionalOccurrence? catalogs) := by
        refine List.filterMap_congr fun o _ => ?_
        obtain ⟨occurrence, scope⟩ := o
        cases occurrence <;> rfl
      rw [Option.bind_some, Option.elim_some, hCheck, c.filterMap_setupOccurrences]
      cases c.body? <;> rfl

namespace CompilationUnit

/-- The components of a unit are checked declaration by declaration. -/
theorem flatMap_components {α : Type} (u : CompilationUnit) (v : Vocabulary)
    (f : Component → List α) :
    (u.components v).flatMap f =
      u.declarations.flatMap fun d => (d.asClass?.bind (Component.ofClass? v)).elim [] f := by
  rw [components, classes, List.filterMap_filterMap, List.filterMap_eq_flatMap_toList,
    List.flatMap_assoc]
  refine List.flatMap_congr fun d _ => ?_
  cases d.asClass?.bind (Component.ofClass? v) <;> simp

/-- The findings about conditional composition are, component by component and there in the order of
the source, those for the calls of composition primitives inside a conditional or a loop. An address
is less than another one if it comes first or leads to it. -/
theorem findings_conditionalComposition (catalogs : Catalogs) (u : CompilationUnit) :
    ∃ trace : List (Address × Diagnostic),
      Rule.conditionalComposition.findings catalogs u = trace.map Prod.snd ∧
        (trace.map Prod.fst).Pairwise (· < ·) ∧
        ∀ address d, (address, d) ∈ trace ↔ u.ConditionalCall catalogs address d := by
  refine ⟨foundInEach (Declaration.conditionalFindings catalogs) u.declarations, ?_,
    pairwise_foundInEach fun d _ => d.pairwise_conditionalFindings catalogs, ?_⟩
  · have hUnit : Rule.conditionalComposition.checkUnit catalogs u = [] := rfl
    rw [Rule.findings, hUnit, List.append_nil, flatMap_components, map_snd_foundInEach]
    exact List.flatMap_congr fun d _ => (d.map_snd_conditionalFindings catalogs).symm
  · intro address d
    rw [mem_foundInEach_iff]
    constructor
    · rintro ⟨i, decl, inner, hDecl, rfl, hFound⟩
      obtain ⟨setup, hSetup, call⟩ := Declaration.mem_conditionalFindings_iff.mp hFound
      exact .intro (hasSetup_iff.mpr ⟨decl, hDecl, hSetup⟩) call
    · rintro ⟨routine, call⟩
      obtain ⟨decl, hDecl, hSetup⟩ := hasSetup_iff.mp routine
      exact ⟨_, decl, _, hDecl, rfl,
        Declaration.mem_conditionalFindings_iff.mpr ⟨_, hSetup, call⟩⟩

end CompilationUnit
end SetupLint
