import SetupLint.Proofs.RuleSelection
import SetupLint.Proofs.SetupPieces

/-! The rules about setup do not look inside the builder closure. If its parameters and its body
are replaced by any others it stays the builder closure, nothing else in the setup routine
changes its scope, and whatever happens inside is left out. -/
namespace SetupLint

/-- What a function consists of. -/
structure Content where
  params : Phrase (.list .param)
  inner : Body

namespace Phrase

variable (content : Content) {c : Category}

/-- A closure with other parameters and another body. -/
def refill : Closure → Closure
  | .closure span _ _ => .closure span content.params content.inner

/-- A function literal with other parameters and another body, in its parentheses. -/
def refillLiteral : {c : Category} → Phrase c → Phrase c
  | _, .paren span expression => .paren span expression.refillLiteral
  | _, .function fn => .function (fn.refill content)
  | _, p => p

/-- A statement with other parameters and another body for the function literal that it
returns. -/
def refillReturn : {c : Category} → Phrase c → Phrase c
  | _, .returnStmt span (.some operand) =>
    .returnStmt span (.some (operand.refillLiteral content))
  | _, p => p

/-- A setup body with other parameters and another body for what it returns: the function literal
after `=>`, or that of a `return` among the statements of the block. -/
def refillReturned : Body → Body
  | .body span modifier (.exprBody expression) =>
    .body span modifier (.exprBody (expression.refillLiteral content))
  | .body span modifier (.blockBody (.block blockSpan statements)) =>
    .body span modifier (.blockBody (.block blockSpan
      (.ofList (statements.toList.map (refillReturn content)))))
  | .body span modifier .noBody => .body span modifier .noBody

/-- A function literal gets the new content through its parentheses. Anything else stays as it is.
-/
theorem refillLiteral_spec (e : Expr) :
    (e.refillLiteral content).asFunction? = e.asFunction?.map (refill content) ∧
      (e.asFunction? = none → e.refillLiteral content = e) := by
  induction e using induction_paren with
  | paren span e ih =>
      refine ⟨ih.1, fun h => ?_⟩
      exact congrArg (Phrase.paren span) (ih.2 h)
  | bare e hBare =>
      cases e <;> try exact ⟨rfl, fun _ => rfl⟩
      case function fn => exact ⟨rfl, fun h => nomatch h⟩
      case paren span e => exact absurd rfl (hBare span e)

/-- Another content makes a closure that is returned another one, and does nothing to a statement
that returns none. -/
theorem refillReturn_spec (stmt : Stmt) :
    (stmt.refillReturn content).returned? = stmt.returned?.map (refill content) ∧
      (stmt.returned? = none → stmt.refillReturn content = stmt) := by
  cases stmt <;> try exact ⟨rfl, fun _ => rfl⟩
  case returnStmt span operand =>
    cases operand with
    | none => exact ⟨rfl, fun _ => rfl⟩
    | some operand =>
        obtain ⟨hFunction, hOther⟩ := refillLiteral_spec content operand
        refine ⟨hFunction, fun h => ?_⟩
        exact congrArg (fun e : Expr => Phrase.returnStmt span (.some e)) (hOther h)

end Phrase

/-- What happens outside the builder closure. -/
def outsideBuilder (entries : List (Occurrence × Scope)) : List (Occurrence × Scope) :=
  entries.filter fun (_, scope) => !scope.insideBuilder

/-- A placed closure with another content at the same address. -/
def PlacedClosure.refill (content : Content) (placed : PlacedClosure) : PlacedClosure :=
  { placed with closure := placed.closure.refill content }

namespace Phrase

variable (content : Content) {c : Category}

/-- The function literal stands where it stood, with the new content. -/
theorem placedFunction?_refillLiteral (e : Expr) :
    (e.refillLiteral content).placedFunction? =
      e.placedFunction?.map (PlacedClosure.refill content) := by
  have hParens : (e.refillLiteral content).throughParens = e.throughParens := by
    induction e using induction_paren with
    | paren span e ih => exact congrArg (0 :: ·) ih
    | bare e hBare =>
        cases e <;> try rfl
        case paren span e => exact absurd rfl (hBare span e)
  unfold placedFunction?
  rw [(refillLiteral_spec content e).1, hParens, Option.map_map, Option.map_map]
  rfl

theorem placedReturn?_refillReturn (stmt : Stmt) :
    (stmt.refillReturn content).placedReturn? =
      stmt.placedReturn?.map (PlacedClosure.refill content) := by
  cases stmt <;> try rfl
  case returnStmt span operand =>
    cases operand with
    | none => rfl
    | some operand =>
        show (operand.refillLiteral content).placedFunction?.map _ =
          (operand.placedFunction?.map _).map _
        rw [placedFunction?_refillLiteral, Option.map_map, Option.map_map]
        rfl

theorem placedReturns_refillReturn (statements : Phrase (.list .stmt)) :
    (Phrase.ofList (statements.toList.map (refillReturn content))).placedReturns =
      statements.placedReturns.map (PlacedClosure.refill content) := by
  induction statements using induction_list with
  | nil => rfl
  | cons stmt rest ih =>
      show ((stmt.refillReturn content).placedReturn?.map _).toList ++ List.map _ _ = _
      rw [ih, placedReturn?_refillReturn, placedReturns, List.map_append, List.map_map,
        List.map_map, Option.map_map, ← Option.toList_map, Option.map_map]
      rfl

/-- The same closures are returned from the same places, with the new content. -/
theorem candidates_refillReturned (setup : Body) :
    (setup.refillReturned content).candidates =
      setup.candidates.map (PlacedClosure.refill content) := by
  cases setup with
  | body span modifier kind =>
      cases kind with
      | blockBody inner =>
          cases inner with
          | block blockSpan statements =>
              show List.map _ (placedReturns _) = (List.map _ statements.placedReturns).map _
              rw [placedReturns_refillReturn, List.map_map, List.map_map]
              rfl
      | exprBody expression =>
          show ((expression.refillLiteral content).placedFunction?.map _).toList =
            (expression.placedFunction?.map _).toList.map _
          rw [placedFunction?_refillLiteral, ← Option.toList_map, Option.map_map, Option.map_map]
          rfl
      | noBody => rfl

/-- With another content the builder closure stays the builder closure, at its place. -/
theorem placedBuilder?_refillReturned (setup : Body) :
    (setup.refillReturned content).placedBuilder? =
      setup.placedBuilder?.map (PlacedClosure.refill content) := by
  unfold placedBuilder?
  rw [candidates_refillReturned, only?_map]

theorem isAsync_refillReturned (setup : Body) :
    (setup.refillReturned content).isAsync = setup.isAsync := by
  cases setup with
  | body span modifier kind =>
      cases kind with
      | blockBody inner => cases inner; rfl
      | exprBody expression => rfl
      | noBody => rfl

/-- A walk that starts inside the builder closure stays inside. -/
theorem insideBuilder_of_mem_walk (p : Phrase c) {scope : Scope}
    (hScope : scope.insideBuilder = true) :
    ∀ entry ∈ p.walk .setup scope, entry.2.insideBuilder = true := by
  induction p using induction_parts generalizing scope with
  | step p ih =>
      intro entry hEntry
      rw [walk_setup_eq, List.mem_append, List.mem_flatMap] at hEntry
      rcases hEntry with hHere | ⟨part, hPart, hInner⟩
      · rw [Option.mem_toList, Option.map_eq_some_iff] at hHere
        obtain ⟨occurrence, -, rfl⟩ := hHere
        exact hScope
      · refine ih part.1 (List.fst_mem_of_mem_zipIdx hPart) ?_ entry hInner
        cases p.frame? with
        | none => exact hScope
        | some frame => cases frame <;> first | exact hScope | rfl

/-- All that happens in a statement that returns the builder closure happens inside of it. -/
theorem outsideBuilder_walk (p : Phrase c) : outsideBuilder (p.walk .setup (.start true)) = [] := by
  have hStart : (Scope.start true).insideBuilder = true := rfl
  apply List.filter_eq_nil_iff.mpr
  intro entry hEntry
  simp [insideBuilder_of_mem_walk p hStart entry hEntry]

/-- The statements of a setup body that return no closure. -/
def otherStatements : Body → List Stmt
  | .body _ _ (.blockBody inner) => inner.statements.filter fun stmt => stmt.returned?.isNone
  | _ => []

/-- If a setup body has a builder closure, what happens outside of it is what happens in the
statements that return no closure. -/
theorem outsideBuilder_occurrences {setup : Body} (hBuilder : setup.builder?.isSome) :
    outsideBuilder setup.occurrences =
      setup.otherStatements.flatMap fun stmt => outsideBuilder (stmt.walk .setup .outermost) := by
  have hStatements : ∀ statements : List Stmt,
      outsideBuilder (statements.flatMap fun stmt =>
          stmt.walk .setup (.start stmt.returned?.isSome)) =
        (statements.filter fun stmt => stmt.returned?.isNone).flatMap fun stmt =>
          outsideBuilder (stmt.walk .setup .outermost) := by
    intro statements
    induction statements with
    | nil => rfl
    | cons stmt statements ih =>
        unfold outsideBuilder at ih ⊢
        rw [List.flatMap_cons, List.filter_append, ih]
        cases hStmt : stmt.returned? with
        | none => simp [hStmt, Scope.start]
        | some closure =>
            have hInside := outsideBuilder_walk stmt
            unfold outsideBuilder at hInside
            simp [hStmt, hInside]
  cases setup with
  | body span modifier kind =>
      cases kind with
      | blockBody inner =>
          rw [occurrences, hBuilder]
          exact hStatements inner.statements
      | exprBody expression =>
          rw [occurrences, hBuilder]
          exact outsideBuilder_walk expression
      | noBody => cases hBuilder

/-- A statement that returns no closure stays. -/
theorem otherStatements_refillReturned (setup : Body) :
    (setup.refillReturned content).otherStatements = setup.otherStatements := by
  cases setup with
  | body span modifier kind =>
      cases kind with
      | blockBody inner =>
          cases inner with
          | block blockSpan statements =>
              have hIsNone : (fun stmt : Stmt => stmt.returned?.isNone) ∘ refillReturn content =
                  fun stmt => stmt.returned?.isNone := by
                funext stmt
                simp [(refillReturn_spec content stmt).1]
              show (Phrase.ofList (statements.toList.map (refillReturn content))).toList.filter _ =
                statements.toList.filter _
              rw [toList_ofList, List.filter_map, hIsNone]
              apply (List.map_congr_left ?_).trans (List.map_id _)
              intro stmt hStmt
              have hNone := (List.mem_filter.mp hStmt).2
              exact (refillReturn_spec content stmt).2 (Option.isNone_iff_eq_none.mp hNone)
      | exprBody expression => rfl
      | noBody => rfl

/-- What happens outside the builder closure does not depend on the content of the closure. -/
theorem occurrences_refillReturned {setup : Body} (hBuilder : setup.builder?.isSome) :
    outsideBuilder (setup.refillReturned content).occurrences =
      outsideBuilder setup.occurrences := by
  have hRefilled : (setup.refillReturned content).builder?.isSome := by
    rw [builder?, Option.isSome_map] at hBuilder ⊢
    rwa [placedBuilder?_refillReturned, Option.isSome_map]
  rw [outsideBuilder_occurrences hBuilder, outsideBuilder_occurrences hRefilled,
    otherStatements_refillReturned]

end Phrase

def MethodDecl.refill (content : Content) (m : MethodDecl) : MethodDecl :=
  { m with body := m.body.refillReturned content }

/-- The setup routine with another content for what it returns, if a member is the routine. -/
def Member.refill? (content : Content) (setupMethod : String) : Member → Option Member
  | .method m =>
    if !m.isStatic && m.kind = .method && m.name.text = setupMethod then
      some (.method (m.refill content))
    else none
  | _ => none

/-- A class with another content for what its setup routine returns. -/
def ClassDecl.refill (content : Content) (setupMethod : String) (c : ClassDecl) : ClassDecl :=
  { c with members := c.members.replaceF (Member.refill? content setupMethod) }

/-- A unit with another class as the declaration with a number. -/
def CompilationUnit.withClass (u : CompilationUnit) (i : Nat) (c : ClassDecl) : CompilationUnit :=
  { u with declarations := u.declarations.set i (.class c) }

namespace ClassDecl

variable (content : Content) (setupMethod : String) (c : ClassDecl)

/-- The setup routine is found under its name, with the new content. -/
theorem instanceMethod?_refill :
    (c.refill content setupMethod).instanceMethod? setupMethod =
      (c.instanceMethod? setupMethod).map (MethodDecl.refill content) := by
  unfold instanceMethod? methods refill
  induction c.members with
  | nil => rfl
  | cons m members ih =>
      cases m with
      | field d => exact ih
      | constructor k => exact ih
      | method m =>
          cases hSetup : !m.isStatic && m.kind = .method && m.name.text = setupMethod with
          | true =>
              have hRefilled : Member.refill? content setupMethod (.method m) =
                  some (.method (m.refill content)) := by
                rw [Member.refill?, hSetup]
                rfl
              rw [List.replaceF_cons_of_some _ hRefilled]
              show List.find? _ (m.refill content :: _) = (List.find? _ (m :: _)).map _
              rw [List.find?_cons_of_pos, List.find?_cons_of_pos]
              · rfl
              · exact hSetup
              · exact hSetup
          | false =>
              have hOther : Member.refill? content setupMethod (.method m) = none := by
                rw [Member.refill?, hSetup]
                rfl
              rw [List.replaceF_cons_of_none _ hOther]
              show List.find? _ (m :: _) = (List.find? _ (m :: _)).map _
              rw [List.find?_cons_of_neg, List.find?_cons_of_neg]
              · exact ih
              · simp [hSetup]
              · simp [hSetup]

/-- The fields of a class do not change with its setup routine. -/
theorem fields_refill : (c.refill content setupMethod).fields = c.fields := by
  unfold fields refill
  induction c.members with
  | nil => rfl
  | cons m members ih =>
      cases m with
      | field d => exact congrArg (d :: ·) ih
      | constructor k => exact ih
      | method m =>
          rw [List.replaceF_cons]
          cases hRefilled : Member.refill? content setupMethod (.method m) with
          | none => exact ih
          | some refilled =>
              obtain ⟨-, h⟩ := Option.ite_none_right_eq_some.mp hRefilled
              cases h
              rfl

end ClassDecl

namespace Component

variable (content : Content) (setupMethod : String) (c : Component)

def refill : Component :=
  ⟨c.decl.refill content setupMethod, c.setup.map (MethodDecl.refill content)⟩

/-- A class is a component with the new content iff it was one. -/
theorem ofClass?_refill (v : Vocabulary) (c : ClassDecl) :
    ofClass? v (c.refill content v.setupMethod) =
      (ofClass? v c).map (refill content v.setupMethod) := by
  unfold ofClass?
  rw [ClassDecl.instanceMethod?_refill]
  show (if c.superclassName = some v.hostBase then _ else none) = _
  split <;> rfl

theorem body?_refill :
    (c.refill content setupMethod).body? = c.body?.map (Phrase.refillReturned content) := by
  obtain ⟨decl, setup⟩ := c
  cases setup <;> rfl

/-- The builder closure and its place in the setup body. -/
def placedBuilder? : Option PlacedClosure := c.body?.bind Phrase.placedBuilder?

/-- The builder closure stands where it stood, with the new content. -/
theorem placedBuilder?_refill :
    (c.refill content setupMethod).placedBuilder? =
      c.placedBuilder?.map (PlacedClosure.refill content) := by
  unfold placedBuilder?
  rw [body?_refill]
  cases c.body? with
  | none => rfl
  | some setup => exact setup.placedBuilder?_refillReturned content

theorem builder?_eq_map : c.builder? = c.placedBuilder?.map PlacedClosure.closure := by
  unfold builder? placedBuilder?
  cases c.body? <;> rfl

/-- Outside of the builder closure the same happens. -/
theorem setupOccurrences_refill (hBuilder : c.builder?.isSome) :
    (c.refill content setupMethod).setupOccurrences = c.setupOccurrences := by
  show outsideBuilder (c.refill content setupMethod).occurrences = outsideBuilder c.occurrences
  rw [occurrences_eq, occurrences_eq, body?_refill]
  unfold builder? at hBuilder
  cases hBody : c.body? with
  | none => rfl
  | some setup =>
      rw [hBody] at hBuilder
      exact setup.occurrences_refillReturned content hBuilder

end Component

namespace Rule

/-- The codes of the rules about setup and the fields. -/
def setupCodes : List String :=
  ["no-conditional-composition", "ensure-reactive-props", "controller-lifecycle",
    "no-async-setup", "no-mutable-fields"]

/-- A rule about setup or fields does not see what the builder closure consists of. -/
theorem checkComponent_refill (content : Content) (setupMethod : String) (catalogs : Catalogs)
    {r : Rule} (hRule : r.code ∈ setupCodes) {c : Component} (hBuilder : c.builder?.isSome) :
    r.checkComponent catalogs (c.refill content setupMethod) = r.checkComponent catalogs c := by
  have hOccurrences := c.setupOccurrences_refill content setupMethod hBuilder
  cases r with
  | conditionalComposition =>
      show checkComposition catalogs _ = checkComposition catalogs c
      rw [checkComposition, hOccurrences, checkComposition]
  | asyncSetup =>
      obtain ⟨decl, setup⟩ := c
      cases setup with
      | none => rfl
      | some setup =>
          show (if (setup.body.refillReturned content).isAsync then _ else []) =
            if setup.body.isAsync then _ else []
          rw [Phrase.isAsync_refillReturned]
          rfl
  | reactiveProps =>
      show checkProps catalogs _ = checkProps catalogs c
      rw [checkProps, hOccurrences, checkProps]
      rfl
  | resourceLifecycle =>
      show checkLifecycle catalogs _ = checkLifecycle catalogs c
      rw [checkLifecycle, hOccurrences, checkLifecycle]
  | mutableField =>
      show (List.filter _ (c.decl.refill content setupMethod).fields).map _ = _
      rw [ClassDecl.fields_refill]
      rfl
  | builderLogic => exact absurd hRule (by decide)
  | heldValue => exact absurd hRule (by decide)
  | dependencyKey => exact absurd hRule (by decide)

/-- The rules about setup and fields look at components only. -/
theorem checkUnit_of_setupCode {r : Rule} (hRule : r.code ∈ setupCodes) {catalogs : Catalogs}
    {u : CompilationUnit} : r.checkUnit catalogs u = [] := by
  cases r with
  | heldValue => exact absurd hRule (by decide)
  | dependencyKey => exact absurd hRule (by decide)
  | _ => rfl

end Rule

/-- A unit with another class in the place of one has the same findings in components if the two
classes have. -/
theorem CompilationUnit.flatMap_components_withClass {α : Type} {u : CompilationUnit} {i : Nat}
    {c d : ClassDecl} (hClass : u.declarations[i]? = some (.class c)) {v : Vocabulary}
    {g : Component → List α}
    (hSame : (Component.ofClass? v d).elim [] g = (Component.ofClass? v c).elim [] g) :
    ((u.withClass i d).components v).flatMap g = (u.components v).flatMap g := by
  let found (d : Declaration) : List α := (d.asClass?.bind (Component.ofClass? v)).elim [] g
  have hComponents : ∀ w : CompilationUnit,
      (w.components v).flatMap g = (w.declarations.map found).flatten := by
    intro w
    unfold components classes
    rw [List.filterMap_filterMap]
    induction w.declarations with
    | nil => rfl
    | cons d declarations ih =>
        rw [List.map_cons, List.flatten_cons, ← ih, List.filterMap_cons]
        cases hFound : d.asClass?.bind (Component.ofClass? v) <;> simp [found, hFound]
  obtain ⟨hLength, hAt⟩ := List.getElem?_eq_some_iff.mp hClass
  have hSet : (u.declarations.set i (.class d)).map found = u.declarations.map found := by
    have hFound : found (.class d) = found u.declarations[i] := by
      rw [hAt]
      exact hSame
    have hMapped : i < (u.declarations.map found).length := by simpa using hLength
    rw [List.map_set, hFound, ← List.getElem_map found (h := hMapped)]
    exact List.set_getElem_self hMapped
  rw [hComponents, hComponents]
  exact congrArg List.flatten hSet

/-- A rule about setup finds the same in a unit whatever the builder closure of a component
contains. -/
theorem Rule.findings_refill (content : Content) (catalogs : Catalogs) {r : Rule}
    (hRule : r.code ∈ setupCodes) {u : CompilationUnit} {i : Nat} {c : ClassDecl}
    {component : Component} (hClass : u.declarations[i]? = some (.class c))
    (hComponent : Component.ofClass? catalogs.vocabulary c = some component)
    (hBuilder : component.builder?.isSome) :
    r.findings catalogs (u.withClass i (c.refill content catalogs.vocabulary.setupMethod)) =
      r.findings catalogs u := by
  have hSame : (Component.ofClass? catalogs.vocabulary
        (c.refill content catalogs.vocabulary.setupMethod)).elim [] (r.checkComponent catalogs) =
      (Component.ofClass? catalogs.vocabulary c).elim [] (r.checkComponent catalogs) := by
    rw [Component.ofClass?_refill, hComponent]
    exact checkComponent_refill content _ catalogs hRule hBuilder
  unfold findings
  rw [CompilationUnit.flatMap_components_withClass hClass hSame, checkUnit_of_setupCode hRule,
    checkUnit_of_setupCode hRule]

namespace Linter

/-- What is kept of the findings is suppressed like all findings. -/
theorem filter_finish (u : CompilationUnit) (diagnostics : List Diagnostic)
    (keep : Diagnostic → Bool) :
    (finish u diagnostics).filter keep = finish u (diagnostics.filter keep) := by
  unfold finish
  cases u.source with
  | none => rfl
  | some source => exact (Suppression.filter_filter ..).symm

/-- The builder closure of a component stays its builder closure with any other parameters and
body, and the findings of the rules about setup stay what they are, whatever is found inside. -/
theorem lint_refill (l : Linter) {u : CompilationUnit} {i : Nat} {c : ClassDecl}
    {component : Component} {builder : PlacedClosure}
    (hClass : u.declarations[i]? = some (.class c))
    (hComponent : Component.ofClass? l.catalogs.vocabulary c = some component)
    (hBuilder : component.placedBuilder? = some builder) (content : Content) :
    let refilled := c.refill content l.catalogs.vocabulary.setupMethod
    (Component.ofClass? l.catalogs.vocabulary refilled).bind Component.placedBuilder? =
        some (builder.refill content) ∧
      (l.lint (u.withClass i refilled)).diagnostics.filter (fun d => d.rule ∈ Rule.setupCodes) =
        (l.lint u).diagnostics.filter (fun d => d.rule ∈ Rule.setupCodes) := by
  intro refilled
  constructor
  · rw [Component.ofClass?_refill, hComponent, Option.map_some, Option.bind_some,
      Component.placedBuilder?_refill, hBuilder]
    rfl
  · have hIsSome : component.builder?.isSome := by simp [Component.builder?_eq_map, hBuilder]
    have hRule : ∀ r ∈ l.enabled.filter fun r => decide (r.code ∈ Rule.setupCodes),
        r.findings l.catalogs (u.withClass i refilled) = r.findings l.catalogs u := by
      intro r hr
      have hCode := of_decide_eq_true (List.mem_filter.mp hr).2
      exact Rule.findings_refill content l.catalogs hCode hClass hComponent hIsSome
    have hFindings : (l.findings (u.withClass i refilled)).filter
          (fun d => d.rule ∈ Rule.setupCodes) =
        (l.findings u).filter (fun d => d.rule ∈ Rule.setupCodes) := by
      unfold findings
      rw [Rule.filter_flatMap_findings _ _ _ fun code => decide (code ∈ Rule.setupCodes),
        Rule.filter_flatMap_findings _ _ _ fun code => decide (code ∈ Rule.setupCodes)]
      exact List.flatMap_congr hRule
    show (finish (u.withClass i refilled) (l.findings (u.withClass i refilled))).filter _ =
      (finish u (l.findings u)).filter _
    rw [filter_finish, filter_finish, hFindings]
    rfl

end Linter

/-- A component that calls a composition primitive in a conditional of its setup routine and
returns an empty closure in parentheses. -/
def gaugeClass : ClassDecl :=
  let body (statements : List Stmt) : Body :=
    .body .zero .sync (.blockBody (.block .zero (.ofList statements)))
  let watch : Expr := .call ⟨20, 27⟩ .none ⟨"watch", .zero⟩ [] .nil false none
  let choice : Stmt := .ifStmt .zero (.identifier .zero "late" none) (.expressionStmt .zero watch)
    .none
  let builder : Expr := .paren .zero (.function (.closure .zero .nil (body [])))
  { span := .zero
    name := ⟨"Gauge", .zero⟩
    superclass := some ⟨.zero, "CompositionWidget", [], false⟩
    isAbstract := false
    members := [.method
      { span := .zero
        name := ⟨"setup", .zero⟩
        kind := .method
        keywords := []
        returnType := none
        params := .nil
        body := body [choice, .returnStmt .zero (.some builder)] }] }

/-- A parameter that makes reactive state if it is late, and a body that reads a field of the
component and makes a timer. -/
def busyContent : Content :=
  let state : Expr := .call .zero .none ⟨"state", .zero⟩ [] .nil false none
  let timer : Expr := .create .zero ⟨.zero, "Timer", [], false⟩ none .nil false
  let name (text : String) : Name := ⟨text, .zero⟩
  { params := .ofList [.param .zero (name "size") none true
      (.some (.conditional .zero (.identifier .zero "late" none) state (.this .zero)))]
    inner := .body .zero .sync (.blockBody (.block .zero (.ofList
      [.expressionStmt .zero (.property .zero (.this .zero) (name "size") false),
        .variableStmt (.variableDecl .zero [] none (.ofList
          [.declarator .zero (name "timer") (.some timer)]))]))) }

/-- In the builder closure the busy content is no business of the rules about setup. -/
theorem lint_gaugeClass :
    let u : CompilationUnit := { path := "lib/gauge.dart", declarations := [.class gaugeClass] }
    let busy := u.withClass 0 (gaugeClass.refill busyContent "setup")
    u.declarations[0]? = some (.class gaugeClass) ∧
      (({} : Linter).lint busy).diagnostics.filter (fun d => d.rule ∈ Rule.setupCodes) =
        (({} : Linter).lint u).diagnostics.filter (fun d => d.rule ∈ Rule.setupCodes) ∧
      (({} : Linter).lint busy).diagnostics.map (·.rule) =
        ["no-conditional-composition", "no-logic-in-builder", "no-logic-in-builder"] ∧
      (({} : Linter).lint u).diagnostics.map (·.rule) = ["no-conditional-composition"] :=
  ⟨rfl, (Linter.lint_refill {} rfl rfl rfl busyContent).2, by decide, by decide⟩

end SetupLint
