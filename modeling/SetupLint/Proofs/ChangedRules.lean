import SetupLint.Linter
import SetupLint.Proofs.ChangedSetup

/-! Rules on changed units. A rule carries positions but does not decide by them, and it looks at an
expression through the parentheses around it. So its findings, their labels and the edits of their
fixes move with the unit and nothing else of them changes. What identifiers are resolved to matters
to the rule about props alone. -/
namespace SetupLint

def Resource.relocate (f : UInt32 → UInt32) (r : Resource) : Resource :=
  { r with span := r.span.relocate f }

variable (g : TreeChange)

namespace Resource

variable (catalogs : Catalogs)

/-- What an expression constructs is known by names, which stay. -/
theorem constructed?_change (e : Expr) : constructed? (e.change g) = constructed? e := by
  refine Phrase.map_change g (f := constructed?) (k := id) (fun _ _ => rfl)
    (fun e hParen => ?_) e
  cases e <;> try first | rfl | cases hParen
  case create span type named args isConst =>
    exact congrArg some (type.simpleName_relocate g.offset)
  case call span target method typeArgs args nullAware resolved =>
    cases target <;> cases resolved <;> rfl

theorem disposable?_change (e : Expr) :
    disposable? catalogs (e.change g) = disposable? catalogs e := by
  rw [disposable?, constructed?_change, disposable?]

/-- A helper is known by its name and by being called at the top level. -/
theorem isHelped_change (e : Expr) : isHelped catalogs (e.change g) = isHelped catalogs e := by
  rw [isHelped, Phrase.asCall?_change, Option.any_map, isHelped]
  congr 1
  funext call
  exact congrArg (· && _) (call.isTopLevel_change g)

/-- A resource moves with its declaration. -/
theorem ofDeclarator?_change (d : Declarator) :
    ofDeclarator? catalogs (d.change g) =
      (ofDeclarator? catalogs d).map (relocate g.offset) := by
  cases d with
  | declarator span name init =>
      cases init with
      | none => rfl
      | some init =>
          show (disposable? catalogs (init.change g)).bind _ =
            ((disposable? catalogs init).bind _).map _
          rw [disposable?_change]
          cases disposable? catalogs init <;> rfl

theorem helpedName?_change (d : Declarator) :
    helpedName? catalogs (d.change g) = helpedName? catalogs d := by
  cases d with
  | declarator span name init =>
      cases init with
      | none => rfl
      | some init =>
          show (if (disposable? catalogs (init.change g)).isNone ∧
              isHelped catalogs (init.change g) then some name.text else none) =
            if (disposable? catalogs init).isNone ∧ isHelped catalogs init then
              some name.text else none
          rw [disposable?_change, isHelped_change]

/-- A variable is disposed of by its name, wherever it stands and whatever it is resolved to. -/
theorem ignores_disposals (method : String) : (disposals method).Ignores g id where
  visit_paren := fun _ _ _ => rfl
  enter_paren := fun _ _ _ => rfl
  visit_change := by
    intro c p _ hParen
    show ((p.change g).call?.bind _).toList = (p.call?.bind _).toList.map id
    rw [Phrase.call?_change g p hParen, List.map_id, Option.bind_map]
    congr 2
    funext call
    have hReceiver : (call.change g).receiver?.map Identifier.name =
        call.receiver?.map Identifier.name := by
      rw [Call.receiver?_change, Option.map_map]
      rfl
    exact congrArg (fun receiver => if call.method.text = method then receiver else none) hReceiver
  enter_change := fun _ _ _ => rfl
  sections_change := fun _ _ => rfl

/-- A cleanup callback disposes of the same variables. -/
theorem disposedNames_change (vocabulary : Vocabulary) (call : Call) :
    disposedNames vocabulary (call.change g) = disposedNames vocabulary call := by
  have hCallback : (call.change g).soleArgument?.bind Phrase.asFunction? =
      (call.soleArgument?.bind Phrase.asFunction?).map (Phrase.change g) := by
    rw [Call.soleArgument?_change]
    cases call.soleArgument? with
    | none => rfl
    | some arg => exact arg.asFunction?_change g
  unfold disposedNames
  rw [hCallback, Call.isTopLevel_change]
  cases call.soleArgument?.bind Phrase.asFunction? with
  | none => rfl
  | some callback =>
      show (if _ then (callback.change g).walk _ () else []) = _
      rw [(ignores_disposals g _).walk_phrase, List.map_id]
      rfl

theorem declared_change (occurrence : Occurrence) :
    declared (occurrence.change g) = (declared occurrence).map (Phrase.change g) := by
  cases occurrence with
  | locals decl => exact decl.declarators_change g
  | _ => rfl

/-- The same names are released. -/
theorem released_change (occurrence : Occurrence) :
    released catalogs (occurrence.change g) = released catalogs occurrence := by
  cases occurrence with
  | locals decl =>
      show (decl.change g).declarators.filterMap _ = decl.declarators.filterMap _
      rw [Phrase.declarators_change, List.filterMap_map]
      exact List.filterMap_congr fun d _ => helpedName?_change g catalogs d
  | call c => exact disposedNames_change g catalogs.vocabulary c
  | _ => rfl

end Resource

namespace Rule

theorem relocate_finding (f : UInt32 → UInt32) (r : Rule) (message : String) (span : Span) :
    (r.finding message span).relocate f = r.finding message (span.relocate f) := rfl

/-- A finding that is made on a condition moves with its condition unchanged. -/
theorem relocate_ite (f : UInt32 → UInt32) (condition : Prop) [Decidable condition]
    (d : Diagnostic) :
    (if condition then some d else none).map (Diagnostic.relocate f) =
      if condition then some (d.relocate f) else none := by
  split <;> rfl

variable (catalogs : Catalogs)

/-! ### Rules about components -/

/-- The finding about an asynchronous setup routine moves with the routine. -/
theorem checkAsync_change (c : Component) :
    checkAsync (c.change g) = (checkAsync c).map (Diagnostic.relocate g.offset) := by
  obtain ⟨decl, setup⟩ := c
  cases setup with
  | none => rfl
  | some setup =>
      show (if (setup.body.change g).isAsync then _ else []) =
        (if setup.body.isAsync then _ else []).map (Diagnostic.relocate g.offset)
      rw [Phrase.isAsync_change]
      split <;> rfl

/-- Whether a call is conditional depends on its scope, which no change of a tree touches. -/
theorem conditionalCall?_change (call : Call) (scope : Scope) :
    conditionalCall? catalogs (call.change g) scope =
      (conditionalCall? catalogs call scope).map (Diagnostic.relocate g.offset) := by
  unfold conditionalCall?
  rw [relocate_ite, Call.isTopLevel_change]
  rfl

theorem checkComposition_change (c : Component) :
    checkComposition catalogs (c.change g) =
      (checkComposition catalogs c).map (Diagnostic.relocate g.offset) := by
  unfold checkComposition
  rw [Component.setupOccurrences_change, List.filterMap_map, List.map_filterMap]
  apply List.filterMap_congr
  rintro ⟨occurrence, scope⟩ -
  cases occurrence with
  | call call => exact conditionalCall?_change g catalogs call scope
  | _ => rfl

theorem propertyRead?_change (vocabulary : Vocabulary) (span : Span) (target : Expr)
    (name : Name) :
    propertyRead? vocabulary (g.span span) (target.change g) (g.name name) =
      (propertyRead? vocabulary span target name).map (Diagnostic.relocate g.offset) := by
  unfold propertyRead?
  rw [relocate_ite, Phrase.isThis_change]
  rfl

variable {g} in
/-- A read through an identifier is known by what the identifier is resolved to. -/
theorem identifierRead?_change (hResolved : g.dropsResolutions = false) (vocabulary : Vocabulary)
    (owner : String) (i : Identifier) :
    identifierRead? vocabulary owner (i.change g) =
      (identifierRead? vocabulary owner i).map (Diagnostic.relocate g.offset) := by
  have hSame : g.resolved i.resolved = i.resolved := by
    unfold TreeChange.resolved
    rw [hResolved]
    rfl
  unfold identifierRead?
  rw [relocate_ite]
  simp only [Identifier.change, hSame]
  rfl

variable {g} in
/-- The rule about props needs to know what identifiers are resolved to. -/
theorem checkProps_change (hResolved : g.dropsResolutions = false) (c : Component) :
    checkProps catalogs (c.change g) =
      (checkProps catalogs c).map (Diagnostic.relocate g.offset) := by
  unfold checkProps
  rw [Component.setupOccurrences_change, List.filterMap_map, List.map_filterMap]
  apply List.filterMap_congr
  rintro ⟨occurrence, scope⟩ -
  cases occurrence with
  | property span target name => exact propertyRead?_change g catalogs.vocabulary span target name
  | identifier i => exact identifierRead?_change hResolved catalogs.vocabulary c.name i
  | _ => rfl

/-- The resources move, the names that are released stay, so the same resources leak. -/
theorem checkLifecycle_change (c : Component) :
    checkLifecycle catalogs (c.change g) =
      (checkLifecycle catalogs c).map (Diagnostic.relocate g.offset) := by
  have hOccurrences : (c.change g).setupOccurrences.map (·.1) =
      (c.setupOccurrences.map (·.1)).map (Occurrence.change g) := by
    rw [Component.setupOccurrences_change, List.map_map, List.map_map]
    rfl
  have hResources : ∀ occurrences : List Occurrence,
      ((occurrences.map (Occurrence.change g)).flatMap Resource.declared).filterMap
        (Resource.ofDeclarator? catalogs) =
      ((occurrences.flatMap Resource.declared).filterMap (Resource.ofDeclarator? catalogs)).map
        (Resource.relocate g.offset) := by
    intro occurrences
    rw [List.flatMap_map]
    simp only [Resource.declared_change]
    rw [← List.map_flatMap, List.filterMap_map, List.map_filterMap]
    exact List.filterMap_congr fun d _ => Resource.ofDeclarator?_change g catalogs d
  have hReleased : ∀ occurrences : List Occurrence,
      (occurrences.map (Occurrence.change g)).flatMap (Resource.released catalogs) =
        occurrences.flatMap (Resource.released catalogs) := by
    intro occurrences
    rw [List.flatMap_map]
    exact List.flatMap_congr fun occurrence _ => Resource.released_change g catalogs occurrence
  unfold checkLifecycle
  rw [hOccurrences]
  generalize c.setupOccurrences.map (·.1) = occurrences
  simp only [hResources, hReleased]
  rw [List.filter_map, List.map_map, List.map_map]
  rfl

/-- A statement is allowed by its kind, which stays. -/
theorem isAllowed_change (stmt : Stmt) : isAllowed (stmt.change g) = isAllowed stmt := by
  cases stmt <;> try rfl
  case patternStmt span keywords pattern init => exact pattern.isDestructuring_change g

/-- The statements that do not belong in a builder closure move. -/
theorem checkBuilder_change (c : Component) :
    checkBuilder (c.change g) = (checkBuilder c).map (Diagnostic.relocate g.offset) := by
  have hBlock : ((c.change g).builder?.bind fun builder => builder.functionBody.block?) =
      (c.builder?.bind fun builder => builder.functionBody.block?).map (Phrase.change g) := by
    rw [Component.builder?_change]
    cases c.builder? with
    | none => rfl
    | some builder =>
        show (builder.change g).functionBody.block? = _
        rw [Phrase.functionBody_change, Phrase.block?_change]
        rfl
  unfold checkBuilder
  rw [hBlock]
  cases c.builder?.bind fun builder => builder.functionBody.block? with
  | none => rfl
  | some block =>
      have hAllowed : (fun stmt : Stmt => !isAllowed stmt) ∘ Phrase.change g =
          fun stmt => !isAllowed stmt := by
        funext stmt
        exact congrArg not (isAllowed_change g stmt)
      show ((block.change g).statements.filter _).map _ = _
      rw [Phrase.statements_change, List.filter_map, hAllowed, List.map_map, List.map_map]
      apply List.map_congr_left
      intro stmt _
      exact congrArg builderLogic.problemAt (stmt.span_change g)

/-- The keyword of a field goes where the field goes. -/
theorem makeFinal_change (field : FieldDecl) :
    makeFinal (field.change g) = (makeFinal field).relocate g.offset := by
  obtain ⟨span, keywords, type, declared⟩ := field
  unfold makeFinal
  simp only [FieldDecl.change, Keyword.find?_relocate, Phrase.toList_change]
  cases Keyword.find? .varWord keywords with
  | some keyword => rfl
  | none =>
      cases type with
      | some type =>
          have hStart : (g.type type).span.start = g.offset type.span.start :=
            congrArg Span.start (type.span_relocate g.offset)
          exact congrArg (TextEdit.insert · "final ") hStart
      | none =>
          cases declared with
          | nil => rfl
          | cons first rest =>
              have hStart : (first.change g).declaredName.span.start =
                  g.offset first.declaredName.span.start :=
                congrArg (fun name : Name => name.span.start) (first.declaredName_change g)
              exact congrArg (TextEdit.insert · "final ") hStart

/-- A field that is not final is mentioned by its names, which stay. -/
theorem mutableFinding_change (c : Component) (field : FieldDecl) :
    mutableFinding (c.change g) (field.change g) =
      (mutableFinding c field).relocate g.offset := by
  have hNames : ((field.change g).declared.toList.map fun d => mention d.declaredName.text) =
      field.declared.toList.map fun d => mention d.declaredName.text := by
    show ((field.declared.change g).toList.map fun d => mention d.declaredName.text) = _
    rw [Phrase.toList_change, List.map_map]
    apply List.map_congr_left
    intro d _
    show mention (d.change g).declaredName.text = mention d.declaredName.text
    rw [Phrase.declaredName_change]
    rfl
  unfold mutableFinding
  rw [makeFinal_change]
  simp only [hNames]
  rfl

/-- The fields that are not final move. -/
theorem checkFields_change (c : Component) :
    checkFields (c.change g) = (checkFields c).map (Diagnostic.relocate g.offset) := by
  have hFields : (c.change g).decl.fields = c.decl.fields.map (FieldDecl.change g) := by
    show (c.decl.members.map (Member.change g)).filterMap Member.asField? =
      (c.decl.members.filterMap Member.asField?).map (FieldDecl.change g)
    rw [List.filterMap_map, List.map_filterMap]
    exact List.filterMap_congr fun m _ => by cases m <;> rfl
  have hMutable : (fun field : FieldDecl => !field.isStatic && !field.isImmutable) ∘
      FieldDecl.change g = fun field => !field.isStatic && !field.isImmutable := by
    funext field
    simp [FieldDecl.isStatic, FieldDecl.isImmutable, FieldDecl.change, Keyword.find?_relocate]
  unfold checkFields
  rw [hFields, List.filter_map, hMutable, List.map_map, List.map_map]
  exact List.map_congr_left fun field _ => mutableFinding_change g c field

/-! ### Rules about units -/

/-- A held value is reached by how an expression is written, through parentheses. -/
theorem reachesHeld_change (held : String) (cascade : Bool) {c : Category} (p : Phrase c) :
    reachesHeld held cascade (p.change g) = reachesHeld held cascade p := by
  induction p using Phrase.induction_open with
  | paren span e ih =>
      exact (Phrase.apply_change_paren g (f := fun e => reachesHeld held cascade e)
        (fun _ _ => rfl) span e).trans ih
  | other p hParen ih =>
      cases p <;> try first | rfl | contradiction
      case other.property span target name nullAware =>
        exact congrArg (name.text == held || ·) (ih ⟨target⟩ List.mem_cons_self)
      case other.index span target position => exact ih ⟨target⟩ List.mem_cons_self
      case other.call span target method typeArgs args nullAware resolved =>
        exact ih ⟨target⟩ List.mem_cons_self
      case other.unary span operator operand =>
        cases operator <;> first | rfl | exact ih ⟨operand⟩ List.mem_cons_self
      case other.some value => exact ih ⟨value⟩ List.mem_cons_self

/-- Whether writing to an expression changes a held value shows through parentheses. -/
theorem isMutatingTarget_change (held : String) (cascade : Bool) (e : Expr) :
    isMutatingTarget held cascade (e.change g) = isMutatingTarget held cascade e := by
  refine Phrase.map_change g (f := isMutatingTarget held cascade) (k := id) (fun _ _ => rfl)
    (fun e hParen => ?_) e
  cases e <;> try first | rfl | cases hParen
  case property span target name nullAware => exact reachesHeld_change g held cascade target
  case index span target position => exact reachesHeld_change g held cascade target

theorem writeFinding?_change (held : String) (cascade : Bool) (span : Span) (e : Expr) :
    writeFinding? held cascade (g.span span) (e.change g) =
      (writeFinding? held cascade span e).map (Diagnostic.relocate g.offset) := by
  unfold writeFinding?
  rw [relocate_ite, isMutatingTarget_change]
  rfl

theorem mutationFinding?_change (cascade : Bool) (call : Call) :
    mutationFinding? catalogs cascade (call.change g) =
      (mutationFinding? catalogs cascade call).map (Diagnostic.relocate g.offset) := by
  obtain ⟨span, target, method, typeArgs, args, nullAware, resolved⟩ := call
  have hTarget : (target.map (Phrase.change g)).any
        (fun target => reachesHeld catalogs.vocabulary.heldValue cascade target) =
      target.any fun target => reachesHeld catalogs.vocabulary.heldValue cascade target := by
    cases target with
    | none => rfl
    | some target => exact reachesHeld_change g _ cascade target
  unfold mutationFinding?
  rw [relocate_ite]
  simp only [Call.change, hTarget]
  rfl

/-- The change of a held value moves with the phrase that makes it. -/
theorem mutationAt?_change (cascade : Bool) {c : Category} (p : Phrase c)
    (hParen : p.isParen = false) :
    mutationAt? catalogs cascade (p.change g) =
      (mutationAt? catalogs cascade p).map (Diagnostic.relocate g.offset) := by
  cases p <;> try first | rfl | cases hParen
  case assign span operator target value => exact writeFinding?_change g _ cascade span target
  case update span operator isBefore operand =>
    exact writeFinding?_change g _ cascade span operand
  case call span target method typeArgs args nullAware resolved =>
    have hCall := Phrase.call?_change g
      (.call span target method typeArgs args nullAware resolved) rfl
    exact (congrArg (Option.bind · (mutationFinding? catalogs cascade)) hCall).trans
      (mutationFinding?_change g catalogs cascade _)

theorem ignores_heldValueWalk :
    (heldValueWalk catalogs).Ignores g (Diagnostic.relocate g.offset) where
  visit_paren := fun _ _ _ => rfl
  enter_paren := fun _ _ _ => rfl
  visit_change := by
    intro c p cascade hParen
    show (mutationAt? catalogs cascade (p.change g)).toList = _
    rw [mutationAt?_change g catalogs cascade p hParen, Option.toList_map]
    rfl
  enter_change := fun _ _ _ => rfl
  sections_change := fun e cascade => reachesHeld_change g _ cascade e

def Collision.relocate (f : UInt32 → UInt32) (x : Collision) : Collision :=
  ⟨x.wrapper.relocate f, x.common.relocate f⟩

section Types

variable (f : UInt32 → UInt32)

/-- A type collides by its names. -/
theorem directCollision?_relocate (t : TypeRef) :
    directCollision? catalogs (t.relocate f) =
      (directCollision? catalogs t).map (Collision.relocate f) := by
  have hCommon : (fun arg : TypeRef => catalogs.primitiveTypes.contains arg.simpleName) ∘
      TypeRef.relocate f = fun arg => catalogs.primitiveTypes.contains arg.simpleName := by
    funext arg
    exact congrArg catalogs.primitiveTypes.contains (arg.simpleName_relocate f)
  unfold directCollision?
  rw [TypeRef.simpleName_relocate, TypeRef.args_relocate, List.find?_map, hCommon]
  split
  · simp only [Option.map_map]
    rfl
  · rfl

mutual

/-- The first collision within a type moves with the type. -/
theorem collision?_relocate : (t : TypeRef) →
    collision? catalogs (t.relocate f) = (collision? catalogs t).map (Collision.relocate f)
  | ⟨span, name, args, nullable⟩ => by
    have hDirect := directCollision?_relocate catalogs f ⟨span, name, args, nullable⟩
    have hArgs := firstCollision?_relocate args
    rw [TypeRef.relocate, TypeRef.relocateAll_eq_map] at hDirect ⊢
    rw [collision?, collision?, hDirect, hArgs]
    cases directCollision? catalogs ⟨span, name, args, nullable⟩ <;> rfl

theorem firstCollision?_relocate : (types : List TypeRef) →
    firstCollision? catalogs (types.map (TypeRef.relocate f)) =
      (firstCollision? catalogs types).map (Collision.relocate f)
  | [] => rfl
  | t :: types => by
    have hFirst := collision?_relocate t
    have hRest := firstCollision?_relocate types
    rw [List.map_cons, firstCollision?, firstCollision?, hFirst, hRest]
    cases collision? catalogs t <;> rfl

end

end Types

/-- The finding for a type argument shows the same types at their new positions. -/
theorem keyFinding?_change (call : Call) (t : TypeRef) :
    keyFinding? catalogs (call.change g) (g.type t) =
      (keyFinding? catalogs call t).map (Diagnostic.relocate g.offset) := by
  unfold keyFinding?
  rw [collision?_relocate, Option.map_map, Option.map_map]
  have hMethod : (call.change g).method.text = call.method.text := rfl
  apply Option.map_congr
  intro x _
  simp only [Function.comp_apply, Collision.relocate, TypeRef.simpleName_relocate,
    TypeRef.text_relocate, TypeRef.span_relocate, relocate_finding, hMethod]

theorem keyFindings_change (call : Call) :
    keyFindings catalogs (call.change g) =
      (keyFindings catalogs call).map (Diagnostic.relocate g.offset) := by
  have hCall : isDependencyCall catalogs.vocabulary (call.change g) =
      isDependencyCall catalogs.vocabulary call := by
    unfold isDependencyCall
    rw [Call.isTopLevel_change]
    rfl
  have hKeys : (call.change g).typeArgs.filterMap (keyFinding? catalogs (call.change g)) =
      (call.typeArgs.filterMap (keyFinding? catalogs call)).map
        (Diagnostic.relocate g.offset) := by
    show (call.typeArgs.map g.type).filterMap _ = _
    rw [List.filterMap_map, List.map_filterMap]
    exact List.filterMap_congr fun t _ => keyFinding?_change g catalogs call t
  unfold keyFindings
  rw [hCall, hKeys]
  split <;> rfl

theorem ignores_dependencyWalk :
    (dependencyWalk catalogs).Ignores g (Diagnostic.relocate g.offset) where
  visit_paren := fun _ _ _ => rfl
  enter_paren := fun _ _ _ => rfl
  visit_change := by
    intro c p _ hParen
    show (p.change g).call?.elim [] (keyFindings catalogs) =
      (p.call?.elim [] (keyFindings catalogs)).map (Diagnostic.relocate g.offset)
    rw [Phrase.call?_change g p hParen]
    cases p.call? with
    | none => rfl
    | some call => exact keyFindings_change g catalogs call
  enter_change := fun _ _ _ => rfl
  sections_change := fun _ _ => rfl

/-! ### All rules -/

variable {g} {r : Rule} (hProps : r = .reactiveProps → g.dropsResolutions = false)

include hProps in
/-- The findings of a rule in a component move with it. -/
theorem checkComponent_change (c : Component) :
    r.checkComponent catalogs (c.change g) =
      (r.checkComponent catalogs c).map (Diagnostic.relocate g.offset) := by
  cases r with
  | conditionalComposition => exact checkComposition_change g catalogs c
  | asyncSetup => exact checkAsync_change g c
  | reactiveProps => exact checkProps_change catalogs (hProps rfl) c
  | resourceLifecycle => exact checkLifecycle_change g catalogs c
  | builderLogic => exact checkBuilder_change g c
  | mutableField => exact checkFields_change g c
  | heldValue => rfl
  | dependencyKey => rfl

variable (g) in
/-- The findings of a rule in a unit as a whole move with it. -/
theorem checkUnit_change (r : Rule) (u : CompilationUnit) :
    r.checkUnit catalogs (u.change g) =
      (r.checkUnit catalogs u).map (Diagnostic.relocate g.offset) := by
  cases r with
  | heldValue => exact (ignores_heldValueWalk g catalogs).walk_unit u false
  | dependencyKey => exact (ignores_dependencyWalk g catalogs).walk_unit u ()
  | _ => rfl

end Rule

/-- The method of a name is the changed one. -/
theorem ClassDecl.instanceMethod?_change (c : ClassDecl) (name : String) :
    (c.change g).instanceMethod? name = (c.instanceMethod? name).map (MethodDecl.change g) := by
  have hMethods : (c.change g).methods = c.methods.map (MethodDecl.change g) := by
    show (c.members.map (Member.change g)).filterMap Member.asMethod? =
      (c.members.filterMap Member.asMethod?).map (MethodDecl.change g)
    rw [List.filterMap_map, List.map_filterMap]
    exact List.filterMap_congr fun m _ => by cases m <;> rfl
  have hStatic : ∀ m : MethodDecl, (m.change g).isStatic = m.isStatic := by
    intro m
    simp [MethodDecl.isStatic, MethodDecl.change, Keyword.find?_relocate]
  unfold instanceMethod?
  rw [hMethods, List.find?_map]
  congr 2
  funext m
  simp only [Function.comp_apply, hStatic]
  rfl

/-- A changed unit has the changed components, as names stay. -/
theorem CompilationUnit.components_change (u : CompilationUnit) (v : Vocabulary) :
    (u.change g).components v = (u.components v).map (Component.change g) := by
  have hClasses : (u.change g).classes = u.classes.map (ClassDecl.change g) := by
    show (u.declarations.map (Declaration.change g)).filterMap Declaration.asClass? =
      (u.declarations.filterMap Declaration.asClass?).map (ClassDecl.change g)
    rw [List.filterMap_map, List.map_filterMap]
    exact List.filterMap_congr fun d _ => by cases d <;> rfl
  have hSuperclass : ∀ c : ClassDecl, (c.change g).superclassName = c.superclassName := by
    intro c
    show (c.superclass.map g.type).map TypeRef.simpleName = _
    rw [Option.map_map]
    congr 1
    funext t
    exact t.simpleName_relocate g.offset
  unfold components
  rw [hClasses, List.filterMap_map, List.map_filterMap]
  apply List.filterMap_congr
  intro c _
  show Component.ofClass? v (c.change g) = (Component.ofClass? v c).map (Component.change g)
  unfold Component.ofClass?
  rw [ClassDecl.instanceMethod?_change, hSuperclass]
  split <;> rfl

/-- The findings of a rule move with the unit, whatever else of it is changed. -/
theorem Rule.findings_change {g : TreeChange} {r : Rule}
    (hProps : r = .reactiveProps → g.dropsResolutions = false) (catalogs : Catalogs)
    (u : CompilationUnit) :
    r.findings catalogs (u.change g) =
      (r.findings catalogs u).map (Diagnostic.relocate g.offset) := by
  unfold findings
  rw [CompilationUnit.components_change, checkUnit_change, List.flatMap_map, List.map_append,
    List.map_flatMap]
  simp only [checkComponent_change catalogs hProps]

/-- Moving nothing leaves a finding as it is. -/
theorem Diagnostic.relocate_id : relocate id = id := by
  have hEdits : Fix.relocate id = id :=
    funext fun x => congrArg (Fix.mk x.message) (List.map_id x.edits)
  funext ⟨rule, severity, message, span, help, labels, fix⟩
  have hLabels : labels.map (Label.relocate id) = labels := List.map_id labels
  have hFix : fix.map (Fix.relocate id) = fix := by
    rw [hEdits, Option.map_id_apply]
  simp only [relocate, hLabels, hFix]
  rfl

/-- Units have the same findings if they are the same after a change that moves nothing. -/
theorem Rule.findings_eq_of_change_eq {r : Rule} {dropsParens dropsResolutions : Bool}
    (hProps : r = .reactiveProps → dropsResolutions = false) (catalogs : Catalogs)
    {u v : CompilationUnit}
    (h : u.change ⟨id, dropsParens, dropsResolutions⟩ =
      v.change ⟨id, dropsParens, dropsResolutions⟩) :
    r.findings catalogs u = r.findings catalogs v := by
  have hMoved := congrArg (r.findings catalogs) h
  rw [findings_change hProps, findings_change hProps, Diagnostic.relocate_id, List.map_id,
    List.map_id] at hMoved
  exact hMoved

end SetupLint
