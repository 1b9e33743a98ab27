import SetupLint.Proofs.ReorderedSetup
import SetupLint.Proofs.ShownFindings

/-! Rules do not depend on the order of statements. What a rule carries from one statement of a
block to another are only sets of names, and what it keeps on the way down is gone at the next
statement. So a unit with the statements of its blocks in another order has the same findings, in
another order. -/
namespace SetupLint

section

variable {α β γ : Type} {R : α → β → Prop} {l : List α} {m : List β}

/-- Lists that are related one by one have the same images under functions that agree. -/
theorem map_eq_of_forall₂ {f : α → γ} {g : β → γ} (h : List.Forall₂ R l m)
    (hSame : ∀ a b, R a b → f a = g b) : l.map f = m.map g := by
  induction h with
  | nil => rfl
  | cons hab _ ih => rw [List.map_cons, List.map_cons, hSame _ _ hab, ih]

theorem rel_find? {p : α → Bool} {q : β → Bool} (h : List.Forall₂ R l m)
    (hSame : ∀ a b, R a b → p a = q b) : Option.Rel R (l.find? p) (m.find? q) := by
  induction h with
  | nil => exact .none
  | @cons a b l m hab _ ih =>
      rw [List.find?_cons, List.find?_cons, hSame a b hab]
      split
      · exact .some hab
      · exact ih

end

namespace Resource

variable {e e' : Expr} {d d' : Declarator} {call call' : Call}

theorem constructed?_eq (h : e.Reordered e') : constructed? e = constructed? e' := by
  obtain ⟨f, hBare, hParts⟩ := h.exists_mapParts_withoutParens
  unfold constructed?
  rw [hBare]
  generalize e.withoutParens = bare at hParts
  cases bare <;> try rfl
  case call span target method typeArgs args nullAware resolved =>
    obtain ⟨g, hTarget, -⟩ := (hParts 0 ⟨target⟩ rfl).exists_mapParts (by simp)
    have hCall :
        constructed? (.call span target method typeArgs args nullAware resolved) =
          constructed? (.call span (f 0 target) method typeArgs (f 1 args) nullAware resolved) := by
      rw [hTarget]
      cases target <;> cases resolved <;> rfl
    exact hCall

theorem disposable?_eq (catalogs : Catalogs) (h : e.Reordered e') :
    disposable? catalogs e = disposable? catalogs e' := by
  unfold disposable?
  rw [constructed?_eq h]

theorem isHelped_eq (catalogs : Catalogs) (h : e.Reordered e') :
    isHelped catalogs e = isHelped catalogs e' :=
  any_eq_of_rel h.asCall? fun _ _ hCall => by rw [hCall.isTopLevel_eq, hCall.method]

theorem ofDeclarator?_eq (catalogs : Catalogs) (h : d.Reordered d') :
    ofDeclarator? catalogs d = ofDeclarator? catalogs d' := by
  unfold ofDeclarator?
  rw [h.declaredName_eq, h.span_eq]
  exact bind_eq_of_rel h.initial? fun _ _ hInit => by rw [disposable?_eq catalogs hInit]

theorem helpedName?_eq (catalogs : Catalogs) (h : d.Reordered d') :
    helpedName? catalogs d = helpedName? catalogs d' := by
  unfold helpedName?
  rw [h.declaredName_eq]
  exact bind_eq_of_rel h.initial? fun _ _ hInit => by
    rw [disposable?_eq catalogs hInit, isHelped_eq catalogs hInit]

/-- The walk for variables that are disposed of does not see the order of statements. -/
theorem ignoresOrder_disposals (method : String) : (disposals method).IgnoresOrder Eq where
  visit_reordered h _ := .of_eq <| congrArg Option.toList <|
    bind_eq_of_rel h.call? fun _ _ hCall => by rw [hCall.method, hCall.receiver?_eq]
  enter_reordered _ _ := rfl
  sections_reordered _ _ := rfl
  visit_statements l _ := by cases l <;> rfl
  enter_statements _ _ := rfl

/-- A callback disposes of the same variables, perhaps in another order. -/
theorem disposedNames_perm (vocabulary : Vocabulary) (h : call.Reordered call') :
    (disposedNames vocabulary call).Perm (disposedNames vocabulary call') := by
  have hCallback : Option.Rel Phrase.Reordered (call.soleArgument?.bind Phrase.asFunction?)
      (call'.soleArgument?.bind Phrase.asFunction?) :=
    rel_bind h.soleArgument? fun _ _ hArg => hArg.asFunction?
  unfold disposedNames
  rw [h.method, h.isTopLevel_eq]
  split
  · generalize call.soleArgument?.bind Phrase.asFunction? = callback at hCallback
    generalize call'.soleArgument?.bind Phrase.asFunction? = callback' at hCallback
    cases hCallback with
    | none => exact List.Perm.refl _
    | some hCallback =>
        exact MatchUpToOrder.eq_iff.mp ((ignoresOrder_disposals _).walk_phrase hCallback ())
  · exact List.Perm.refl _

/-- The declared variables are reordered one by one. -/
theorem declared_reordered {a b : Occurrence} (h : a.Reordered b) :
    MatchUpToOrder Phrase.Reordered (declared a) (declared b) := by
  cases h with
  | locals h => exact .of_forall₂ h.declarators
  | _ => exact .nil

/-- The same names are released, perhaps in another order. -/
theorem released_perm (catalogs : Catalogs) {a b : Occurrence} (h : a.Reordered b) :
    (released catalogs a).Perm (released catalogs b) := by
  cases h with
  | call h => exact disposedNames_perm catalogs.vocabulary h
  | locals h =>
      exact (MatchUpToOrder.of_forall₂ h.declarators).filterMap_perm fun _ _ hDeclarator =>
        helpedName?_eq catalogs hDeclarator
  | _ => exact List.Perm.refl _

end Resource

theorem ClassDecl.Reordered.fields {c c' : ClassDecl} (h : c.Reordered c') :
    MatchUpToOrder FieldDecl.Reordered c.fields c'.fields := by
  refine (MatchUpToOrder.of_forall₂ h.members).filterMap fun _ _ hMember => ?_
  cases hMember with
  | field hField => exact .some hField
  | _ => exact .none

namespace Rule

variable (catalogs : Catalogs) {c c' : Component}

/-- The same calls are conditional, perhaps found in another order. -/
theorem checkComposition_perm (h : c.Reordered c') :
    (checkComposition catalogs c).Perm (checkComposition catalogs c') := by
  refine h.setupOccurrences.filterMap_perm ?_
  rintro ⟨occurrence, scope⟩ ⟨occurrence', scope'⟩ ⟨hOccurrence, rfl⟩
  cases hOccurrence with
  | call hCall =>
      show conditionalCall? catalogs _ scope = conditionalCall? catalogs _ scope
      unfold conditionalCall?
      rw [hCall.method, hCall.isTopLevel_eq, hCall.span]
  | _ => rfl

theorem checkAsync_eq (h : c.Reordered c') : checkAsync c = checkAsync c' := by
  have hName := h.name_eq
  have hSetup := h.setup
  unfold checkAsync
  generalize c.setup = setup at hSetup
  generalize c'.setup = setup' at hSetup
  cases hSetup with
  | none => rfl
  | some hSetup =>
      obtain ⟨-, hBody⟩ := hSetup
      simp only [hName, hBody.isAsync_eq]

/-- The same props are read, perhaps found in another order. -/
theorem checkProps_perm (h : c.Reordered c') :
    (checkProps catalogs c).Perm (checkProps catalogs c') := by
  refine h.setupOccurrences.filterMap_perm ?_
  rintro ⟨occurrence, scope⟩ ⟨occurrence', scope'⟩ ⟨hOccurrence, -⟩
  cases hOccurrence with
  | property span name hTarget =>
      show propertyRead? _ span _ name = propertyRead? _ span _ name
      unfold propertyRead?
      rw [hTarget.isThis_eq]
  | identifier i => exact congrArg (identifierRead? catalogs.vocabulary · i) h.name_eq
  | _ => rfl

/-- The same resources are made and the same names are released, whichever comes first. -/
theorem checkLifecycle_perm (h : c.Reordered c') :
    (checkLifecycle catalogs c).Perm (checkLifecycle catalogs c') := by
  have hOccurrences : MatchUpToOrder Occurrence.Reordered (c.setupOccurrences.map (·.1))
      (c'.setupOccurrences.map (·.1)) :=
    h.setupOccurrences.map fun _ _ hScope => hScope.1
  have hResources := (hOccurrences.flatMap fun _ _ => Resource.declared_reordered).filterMap_perm
    fun _ _ => Resource.ofDeclarator?_eq catalogs
  have hReleased := hOccurrences.flatMap_perm fun _ _ => Resource.released_perm catalogs
  unfold checkLifecycle
  refine List.Perm.map _ ?_
  simp only [List.contains_eq_mem, hReleased.mem_iff]
  exact hResources.filter _

theorem isAllowed_eq {s s' : Stmt} (h : s.Reordered s') : isAllowed s = isAllowed s' := by
  obtain ⟨f, rfl, hParts⟩ := h.exists_mapParts (by simp)
  cases s <;> try rfl
  case patternStmt span keywords pattern init =>
    exact (hParts 0 ⟨pattern⟩ rfl).isDestructuring_eq

/-- The same statements do not belong in the builder closure. -/
theorem checkBuilder_perm (h : c.Reordered c') : (checkBuilder c).Perm (checkBuilder c') := by
  have hBlock : Option.Rel Phrase.Reordered
      (c.builder?.bind fun builder => builder.functionBody.block?)
      (c'.builder?.bind fun builder => builder.functionBody.block?) :=
    rel_bind h.builder? fun _ _ hBuilder => hBuilder.functionBody.block?
  unfold checkBuilder
  generalize (c.builder?.bind fun builder => builder.functionBody.block?) = block at hBlock
  generalize (c'.builder?.bind fun builder => builder.functionBody.block?) = block' at hBlock
  cases hBlock with
  | none => exact List.Perm.refl _
  | some hBlock =>
      have hFound := hBlock.statements.filter fun _ _ hStmt => congrArg not (isAllowed_eq hStmt)
      exact hFound.map_perm fun _ _ hStmt => congrArg builderLogic.problemAt hStmt.span_eq

theorem makeFinal_eq {f g : FieldDecl} (h : f.Reordered g) : makeFinal f = makeFinal g := by
  have hDeclarators := h.declarators
  obtain ⟨hKeywords, hType, hSpan⟩ :
      f.keywords = g.keywords ∧ f.type = g.type ∧ f.span = g.span := by
    obtain ⟨-⟩ := h
    exact ⟨rfl, rfl, rfl⟩
  unfold makeFinal
  rw [hKeywords, hType, hSpan]
  generalize f.declared.toList = items at hDeclarators
  generalize g.declared.toList = items' at hDeclarators
  cases hDeclarators with
  | nil => rfl
  | cons hFirst _ =>
      cases Keyword.find? .varWord g.keywords with
      | some keyword => rfl
      | none =>
          cases g.type with
          | some type => rfl
          | none =>
              exact congrArg (fun name : Name => TextEdit.insert name.span.start "final ")
                hFirst.declaredName_eq

theorem mutableFinding_eq (h : c.Reordered c') {f g : FieldDecl} (hField : f.Reordered g) :
    mutableFinding c f = mutableFinding c' g := by
  have hNames : (f.declared.toList.map fun d => mention d.declaredName.text) =
      g.declared.toList.map fun d => mention d.declaredName.text :=
    map_eq_of_forall₂ hField.declarators fun _ _ hName => by rw [hName.declaredName_eq]
  have hSpan : f.span = g.span := by
    obtain ⟨-⟩ := hField
    rfl
  unfold mutableFinding
  simp only [hNames, hSpan, h.name_eq, makeFinal_eq hField]

theorem checkFields_perm (h : c.Reordered c') : (checkFields c).Perm (checkFields c') := by
  have hFields := h.decl.fields.filter
    (p := fun field => !field.isStatic && !field.isImmutable)
    (q := fun field => !field.isStatic && !field.isImmutable) fun f g hField => by
      obtain ⟨-⟩ := hField
      rfl
  exact hFields.map_perm fun _ _ hField => mutableFinding_eq h hField

/-- The way to a held value does not lead through statements. -/
theorem reachesHeld_eq (held : String) (cascade : Bool) {c : Category} {p q : Phrase c}
    (h : p.Reordered q) : reachesHeld held cascade p = reachesHeld held cascade q := by
  induction h with
  | parts p f hParts ih =>
      cases p <;> try rfl
      case property span target name nullAware =>
        exact congrArg (name.text == held || ·) (ih 0 ⟨target⟩ rfl)
      case index span target position => exact ih 0 ⟨target⟩ rfl
      case call span target method typeArgs args nullAware resolved => exact ih 0 ⟨target⟩ rfl
      case unary span operator operand =>
        cases operator <;> first | rfl | exact ih 0 ⟨operand⟩ rfl
      case paren span expression => exact ih 0 ⟨expression⟩ rfl
      case some value => exact ih 0 ⟨value⟩ rfl
  | @permuted l m n inner perm ih => cases l <;> cases n <;> rfl

theorem isMutatingTarget_eq (held : String) (cascade : Bool) {e e' : Expr} (h : e.Reordered e') :
    isMutatingTarget held cascade e = isMutatingTarget held cascade e' := by
  obtain ⟨f, hBare, hParts⟩ := h.exists_mapParts_withoutParens
  unfold isMutatingTarget
  rw [hBare]
  generalize e.withoutParens = bare at hParts
  cases bare <;> try rfl
  case property span target name nullAware =>
    exact reachesHeld_eq held cascade (hParts 0 ⟨target⟩ rfl)
  case index span target position => exact reachesHeld_eq held cascade (hParts 0 ⟨target⟩ rfl)

theorem mutationFinding?_eq (cascade : Bool) {call call' : Call} (h : call.Reordered call') :
    mutationFinding? catalogs cascade call = mutationFinding? catalogs cascade call' := by
  have hTarget : (call.target.any fun target =>
        reachesHeld catalogs.vocabulary.heldValue cascade target) =
      call'.target.any fun target => reachesHeld catalogs.vocabulary.heldValue cascade target :=
    any_eq_of_rel h.target fun _ _ hReordered => reachesHeld_eq _ cascade hReordered
  unfold mutationFinding?
  simp only [h.method, h.span, hTarget]

theorem mutationAt?_eq (cascade : Bool) {c : Category} {p q : Phrase c} (h : p.Reordered q) :
    mutationAt? catalogs cascade p = mutationAt? catalogs cascade q := by
  have hWrite (span : Span) {e e' : Expr} (hTarget : e.Reordered e') :
      writeFinding? catalogs.vocabulary.heldValue cascade span e =
        writeFinding? catalogs.vocabulary.heldValue cascade span e' := by
    unfold writeFinding?
    rw [isMutatingTarget_eq _ cascade hTarget]
  have hCall := bind_eq_of_rel h.call? fun _ _ => mutationFinding?_eq catalogs cascade
  cases h with
  | parts p f hParts =>
      cases p <;> try rfl
      case call => exact hCall
      case assign span operator target value => exact hWrite span (hParts 0 ⟨target⟩ rfl)
      case update span operator isBefore operand => exact hWrite span (hParts 0 ⟨operand⟩ rfl)
  | @permuted l m n inner perm => cases l <;> cases n <;> rfl

theorem ignoresOrder_heldValueWalk : (heldValueWalk catalogs).IgnoresOrder Eq where
  visit_reordered h cascade := .of_eq (congrArg Option.toList (mutationAt?_eq catalogs cascade h))
  enter_reordered _ _ := rfl
  sections_reordered h cascade := reachesHeld_eq _ cascade h
  visit_statements l _ := by cases l <;> rfl
  enter_statements _ _ := rfl

/-- The keys of a call are in its type arguments, which hold no statements. -/
theorem keyFindings_eq {call call' : Call} (h : call.Reordered call') :
    keyFindings catalogs call = keyFindings catalogs call' := by
  unfold keyFindings isDependencyCall keyFinding?
  rw [h.method, h.isTopLevel_eq, h.typeArgs]

theorem ignoresOrder_dependencyWalk : (dependencyWalk catalogs).IgnoresOrder Eq where
  visit_reordered h _ := rel_elim h.call? .nil fun _ _ hCall =>
    .of_eq (keyFindings_eq catalogs hCall)
  enter_reordered _ _ := rfl
  sections_reordered _ _ := rfl
  visit_statements l _ := by cases l <;> exact rfl
  enter_statements _ _ := rfl

/-- A rule finds the same in a reordered component, perhaps in another order. -/
theorem checkComponent_perm (r : Rule) (h : c.Reordered c') :
    (r.checkComponent catalogs c).Perm (r.checkComponent catalogs c') := by
  cases r with
  | conditionalComposition => exact checkComposition_perm catalogs h
  | asyncSetup => exact .of_eq (checkAsync_eq h)
  | reactiveProps => exact checkProps_perm catalogs h
  | resourceLifecycle => exact checkLifecycle_perm catalogs h
  | builderLogic => exact checkBuilder_perm h
  | mutableField => exact checkFields_perm h
  | heldValue => exact .refl _
  | dependencyKey => exact .refl _

/-- A rule finds the same in a reordered unit as a whole, perhaps in another order. -/
theorem checkUnit_perm (r : Rule) {u v : CompilationUnit} (h : u.Reordered v) :
    (r.checkUnit catalogs u).Perm (r.checkUnit catalogs v) := by
  cases r with
  | heldValue =>
      exact MatchUpToOrder.eq_iff.mp ((ignoresOrder_heldValueWalk catalogs).walk_unit h false)
  | dependencyKey =>
      exact MatchUpToOrder.eq_iff.mp ((ignoresOrder_dependencyWalk catalogs).walk_unit h ())
  | _ => exact .refl _

end Rule

/-- The first plain method with a name is where it was among the members. -/
theorem ClassDecl.Reordered.instanceMethod? {c c' : ClassDecl} (h : c.Reordered c')
    (name : String) :
    Option.Rel MethodDecl.Reordered (c.instanceMethod? name) (c'.instanceMethod? name) := by
  have hMethods : List.Forall₂ MethodDecl.Reordered c.methods c'.methods := by
    refine List.rel_filterMap (fun m n hMember => ?_) h.members
    cases hMember with
    | method hMethod => exact .some hMethod
    | _ => exact .none
  refine rel_find? hMethods fun m n hMethod => ?_
  obtain ⟨-⟩ := hMethod
  rfl

/-- A reordered unit has the reordered components. -/
theorem CompilationUnit.Reordered.components {u v : CompilationUnit} (h : u.Reordered v)
    (vocabulary : Vocabulary) :
    MatchUpToOrder Component.Reordered (u.components vocabulary) (v.components vocabulary) := by
  have hClasses : MatchUpToOrder ClassDecl.Reordered u.classes v.classes :=
    (MatchUpToOrder.of_forall₂ h.declarations).filterMap fun _ _ hDeclaration => by
      cases hDeclaration with
      | «class» hClass => exact .some hClass
      | _ => exact .none
  refine hClasses.filterMap fun c c' hClass => ?_
  have hSetup := hClass.instanceMethod? vocabulary.setupMethod
  unfold Component.ofClass?
  have hSuperclass : c.superclassName = c'.superclassName := by
    obtain ⟨-⟩ := hClass
    rfl
  rw [hSuperclass]
  split
  · exact .some ⟨hClass, hSetup⟩
  · exact .none

/-- A rule has the same findings in a unit and in the same one with its statements in another
order. -/
theorem Rule.findings_perm (r : Rule) (catalogs : Catalogs) {u v : CompilationUnit}
    (h : u.Reordered v) : (r.findings catalogs u).Perm (r.findings catalogs v) := by
  have hComponents := (h.components catalogs.vocabulary).flatMap_perm
    fun _ _ hComponent => r.checkComponent_perm catalogs hComponent
  exact hComponents.append (r.checkUnit_perm catalogs h)

/-- Whatever rules run, the order of statements does not change what is reported. -/
theorem Linter.lint_reordered (l : Linter) {u v : CompilationUnit} (h : u.Reordered v) :
    (l.lint u).diagnostics.Perm (l.lint v).diagnostics := by
  have hFindings : (l.findings u).Perm (l.findings v) :=
    List.Perm.flatMap_left _ fun r _ => r.findings_perm l.catalogs h
  have hSource : u.source = v.source := by
    obtain ⟨-⟩ := h
    rfl
  rw [diagnostics_lint, diagnostics_lint, hSource]
  exact hFindings.filter _

/-- A body with its statements put in order. -/
def bodyBy (order : List Stmt → List Stmt) (statements : List Stmt) : Body :=
  .body .zero .sync (.blockBody (.block .zero (.ofList (order statements))))

/-- The declaration of a variable with a new timer. -/
def timer (span : Span) (name : String) : Stmt :=
  .variableStmt (.variableDecl span [] none (.ofList [.declarator span ⟨name, .zero⟩
    (.some (.create .zero ⟨.zero, "Timer", [], false⟩ none .nil false))]))

/-- A builder closure that makes two timers, with its statements put in order. -/
def clockBuilder (order : List Stmt → List Stmt) : Closure :=
  .closure .zero .nil (bodyBy order [timer ⟨50, 60⟩ "third", timer ⟨70, 80⟩ "fourth"])

/-- The statements of a setup routine that disposes of one of two timers, before it makes them,
with the statements of its builder closure put in order. -/
def clockStatements (order : List Stmt → List Stmt) : List Stmt :=
  let dispose : Expr :=
    .call .zero (.some (.identifier .zero "first" none)) ⟨"dispose", .zero⟩ [] .nil false none
  let callback : Expr :=
    .function (.closure .zero .nil (.body .zero .sync (.exprBody dispose)))
  let cleanup : Expr :=
    .call .zero .none ⟨"onCleanup", .zero⟩ [] (.ofList [.argument none callback]) false none
  [.expressionStmt .zero cleanup, timer ⟨10, 20⟩ "first", timer ⟨30, 40⟩ "second",
   .returnStmt .zero (.some (.function (clockBuilder order)))]

/-- A component with the statements of its setup routine and of its builder closure put in order. -/
def clockUnit (order : List Stmt → List Stmt) : CompilationUnit where
  path := "lib/clock.dart"
  declarations := [.class
    { span := .zero
      name := ⟨"Clock", .zero⟩
      superclass := some ⟨.zero, "CompositionWidget", [], false⟩
      isAbstract := false
      members := [.method
        { span := .zero
          name := ⟨"setup", .zero⟩
          kind := .method
          keywords := []
          returnType := none
          params := .nil
          body := bodyBy order (clockStatements order) }] }]

section

variable {order : List Stmt → List Stmt} (hOrder : ∀ l, (order l).Perm l)
include hOrder

theorem reordered_bodyBy {l m : List Stmt} (h : List.Forall₂ Phrase.Reordered l m) :
    (bodyBy id l).Reordered (bodyBy order m) := by
  have hStatements : (Phrase.ofList l).Reordered (.ofList (order m)) :=
    .permuted (.ofList h) (by simpa using (hOrder m).symm)
  have hBlock : (Phrase.block .zero (.ofList l)).Reordered (.block .zero (.ofList (order m))) :=
    .of_part rfl hStatements
  have hKind : (Phrase.blockBody (.block .zero (.ofList l))).Reordered
      (.blockBody (.block .zero (.ofList (order m)))) := .of_part rfl hBlock
  exact .of_part rfl hKind

/-- Putting the statements in order gives the same unit up to order. -/
theorem reordered_clockUnit : (clockUnit id).Reordered (clockUnit order) := by
  have hBuilder : (clockBuilder id).Reordered (clockBuilder order) := by
    have hInner := reordered_bodyBy hOrder (List.forall₂_same.mpr fun stmt
      (_ : stmt ∈ [timer ⟨50, 60⟩ "third", timer ⟨70, 80⟩ "fourth"]) => .refl stmt)
    have hParts : List.Forall₂ Node.Reordered (clockBuilder id).parts
        [⟨(Phrase.nil : Phrase (.list .param))⟩, ⟨bodyBy order _⟩] :=
      .cons (.intro (.refl _)) (.cons (.intro hInner) .nil)
    exact .of_parts hParts
  have hLiteral : (Phrase.function (clockBuilder id)).Reordered (.function (clockBuilder order)) :=
    .of_part rfl hBuilder
  have hOperand : (Phrase.some (.function (clockBuilder id))).Reordered
      (.some (.function (clockBuilder order))) := .of_part rfl hLiteral
  have hReturn : (Phrase.returnStmt .zero (.some (.function (clockBuilder id)))).Reordered
      (.returnStmt .zero (.some (.function (clockBuilder order)))) := .of_part rfl hOperand
  have hStatements :
      List.Forall₂ Phrase.Reordered (clockStatements id) (clockStatements order) :=
    .cons (.refl _) (.cons (.refl _) (.cons (.refl _) (.cons hReturn .nil)))
  have hBody := reordered_bodyBy hOrder hStatements
  exact .intro _ (.cons (.class (.intro _ (.cons (.method (.intro _ (.refl _) hBody)) .nil))) .nil)

end

/-- With the statements of both blocks in reverse order the disposal comes behind the timers and
the builder closure comes first. The first timer is released in both cases, and the findings about
the second one and in the builder closure are the same. -/
theorem lint_clockUnit :
    (clockUnit id).Reordered (clockUnit List.reverse) ∧
      (({} : Linter).lint (clockUnit id)).diagnostics.Perm
        (({} : Linter).lint (clockUnit List.reverse)).diagnostics ∧
      (({} : Linter).lint (clockUnit id)).diagnostics.map (fun d => (d.rule, d.span)) =
        [("controller-lifecycle", ⟨30, 40⟩), ("no-logic-in-builder", ⟨50, 60⟩),
          ("no-logic-in-builder", ⟨70, 80⟩)] ∧
      (({} : Linter).lint (clockUnit List.reverse)).diagnostics.map (fun d => (d.rule, d.span)) =
        [("controller-lifecycle", ⟨30, 40⟩), ("no-logic-in-builder", ⟨70, 80⟩),
          ("no-logic-in-builder", ⟨50, 60⟩)] :=
  have hReordered := reordered_clockUnit List.reverse_perm
  ⟨hReordered, Linter.lint_reordered {} hReordered, by decide, by decide⟩

end SetupLint
