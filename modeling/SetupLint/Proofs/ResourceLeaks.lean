import SetupLint.Linter
import SetupLint.Proofs.SetupPlaces
import SetupLint.Proofs.TextSplit

/-! Resources that are made in a setup routine and never disposed of. A variable is known by its
name, and whether one is released is a matter of the whole routine: a helper or a callback releases
the variables of a name wherever it stands outside of the builder closure. -/
namespace SetupLint

/-- A variable of a declaration: where the declaration is, and which of its variables is meant. -/
structure LocalPlace where
  declaration : Address
  entry : Nat
deriving DecidableEq

/-- An expression makes an instance of a type, but for the parentheses around it. A call of a
constructor may look like the call of a function. -/
inductive Constructs (e : Expr) : String → Prop where
  | create {span : Span} {type : TypeRef} {constructor : Option Name}
      {args : Phrase (.list .argument)} {isConst : Bool}
      (bare : e.withoutParens = .create span type constructor args isConst) :
      Constructs e type.simpleName
  | call {span : Span} {method : Name} {typeArgs : List TypeRef} {args : Phrase (.list .argument)}
      {nullAware : Bool} {resolution : Resolution}
      (bare : e.withoutParens = .call span .none method typeArgs args nullAware (some resolution))
      (kind : resolution.kind = .constructor ∨ resolution.kind = .classType) :
      Constructs e method.text

/-- An expression is a call of a helper that owns the resource it makes: a function at the top level
whose name starts with the prefix of helpers and has a word for a resource in it. -/
inductive CallsHelper (catalogs : Catalogs) (e : Expr) : Prop where
  | intro {span : Span} {target : Phrase (.option .expr)} {method : Name}
      {typeArgs : List TypeRef} {args : Phrase (.list .argument)} {nullAware : Bool}
      {resolved : Option Resolution} {keyword : String}
      (bare : e.withoutParens = .call span target method typeArgs args nullAware resolved)
      (topLevel : CallsTopLevel target resolved)
      (helper : catalogs.vocabulary.helperPrefix.toList <+: method.text.toList)
      (resource : keyword ∈ catalogs.resourceKeywords.entries)
      (named : keyword.toList <:+: method.text.toList) : CallsHelper catalogs e

namespace Phrase

/-- A variable is declared at a place of a setup body, outside of the builder closure. -/
inductive DeclaresAt (setup : Body) (place : LocalPlace) (d : Declarator) : Prop where
  | intro {span : Span} {keywords : List Keyword} {type : Option TypeRef}
      {declared : Phrase (.list .declarator)}
      (declaration : setup.at? place.declaration =
        some ⟨.variableDecl span keywords type declared⟩)
      (outside : ¬ setup.InsideBuilder place.declaration)
      (entry : declared.toList[place.entry]? = some d) : DeclaresAt setup place d

/-- A helper makes a variable of a name. -/
inductive MadeByHelper (setup : Body) (catalogs : Catalogs) (variableName : String) : Prop where
  | intro {place : LocalPlace} {span : Span} {name : Name} {value : Expr}
      (declared : setup.DeclaresAt place (.declarator span name (.some value)))
      (named : name.text = variableName) (helper : CallsHelper catalogs value) :
      MadeByHelper setup catalogs variableName

/-- A method is called on a variable of a name somewhere in a function literal. -/
inductive CallsOn (callback : Closure) (methodName variableName : String) : Prop where
  | intro {address : Address} {span : Span} {target : Expr} {method : Name}
      {typeArgs : List TypeRef} {args : Phrase (.list .argument)} {nullAware : Bool}
      {resolved : Option Resolution} {receiverSpan : Span} {receiver : Option Resolution}
      (call : callback.at? address =
        some ⟨.call span (.some target) method typeArgs args nullAware resolved⟩)
      (named : method.text = methodName)
      (bare : target.withoutParens = .identifier receiverSpan variableName receiver) :
      CallsOn callback methodName variableName

/-- A callback that is registered for the end disposes of a variable of a name. The callback is the
only argument of the registration and has no label. -/
inductive DisposedOf (setup : Body) (v : Vocabulary) (variableName : String) : Prop where
  | intro {address : Address} {span : Span} {target : Phrase (.option .expr)} {method : Name}
      {typeArgs : List TypeRef} {value : Expr} {nullAware : Bool} {resolved : Option Resolution}
      {callback : Closure}
      (call : setup.at? address =
        some ⟨.call span target method typeArgs (.cons (.argument none value) .nil) nullAware
          resolved⟩)
      (outside : ¬ setup.InsideBuilder address) (named : method.text = v.cleanupRegistration)
      (topLevel : CallsTopLevel target resolved) (bare : value.withoutParens = .function callback)
      (disposal : callback.CallsOn v.disposalMethod variableName) : DisposedOf setup v variableName

/-- A warning about a resource that is never released. -/
def leakWarning (v : Vocabulary) (resource : Resource) : Diagnostic where
  rule := "controller-lifecycle"
  severity := .warning
  message := mention resource.name ++ " (" ++ resource.type ++ ") is never disposed"
  span := resource.span
  help := some <|
    "Add `" ++ v.cleanupRegistration ++ "(() => " ++ resource.name ++ "." ++ v.disposalMethod ++
      "())` or create it with a `" ++ v.helperPrefix ++ "*` helper"

/-- The variable at a place holds an instance of a disposable type that is never released, and this
is the finding for it. -/
inductive Leaks (setup : Body) (catalogs : Catalogs) (place : LocalPlace) : Diagnostic → Prop where
  | intro {span : Span} {name : Name} {value : Expr} {type entry : String}
      (declared : setup.DeclaresAt place (.declarator span name (.some value)))
      (constructs : Constructs value type)
      (disposable : entry ∈ catalogs.disposablePrefixes.entries)
      (starts : entry.toList <+: type.toList)
      (notHelped : ¬ setup.MadeByHelper catalogs name.text)
      (notDisposed : ¬ setup.DisposedOf catalogs.vocabulary name.text) :
      Leaks setup catalogs place (leakWarning catalogs.vocabulary ⟨name.text, type, span⟩)

end Phrase

/-! ### Values -/

namespace Resource

variable {catalogs : Catalogs} {e : Expr}

theorem constructed?_eq_some_iff {type : String} :
    constructed? e = some type ↔ Constructs e type := by
  constructor
  · intro h
    unfold constructed? at h
    cases hBare : e.withoutParens <;> rw [hBare] at h <;> try cases h
    case create.refl => exact .create hBare
    case call span target method typeArgs args nullAware resolved =>
      cases target <;> cases resolved <;> try cases h
      obtain ⟨kind, h⟩ := Option.ite_none_right_eq_some.mp h
      cases h
      exact .call hBare kind
  · rintro (bare | ⟨bare, kind⟩)
    · rw [constructed?, bare]
    · rw [constructed?, bare]
      exact if_pos kind

/-- What is disposable has a type that starts with an entry of the catalog. -/
theorem disposable?_eq_some_iff {type : String} :
    disposable? catalogs e = some type ↔ Constructs e type ∧
      ∃ entry ∈ catalogs.disposablePrefixes.entries, entry.toList <+: type.toList := by
  rw [disposable?, Option.filter_eq_some_iff, constructed?_eq_some_iff, Catalog.hasPrefixOf,
    List.any_eq_true]
  simp only [List.isPrefixOf_iff_prefix]

/-- What is helped is a call of a helper. -/
theorem isHelped_iff : isHelped catalogs e = true ↔ CallsHelper catalogs e := by
  have hHelper : ∀ callee, catalogs.isResourceHelper callee = true ↔
      catalogs.vocabulary.helperPrefix.toList <+: callee.toList ∧
        ∃ keyword ∈ catalogs.resourceKeywords.entries, keyword.toList <:+: callee.toList := by
    intro callee
    rw [Catalogs.isResourceHelper, Bool.and_eq_true, List.isPrefixOf_iff_prefix,
      Catalog.hasFragmentOf, List.any_eq_true]
    simp only [Text.contains_iff]
  constructor
  · intro h
    unfold isHelped Phrase.asCall? at h
    cases hBare : e.withoutParens <;> rw [hBare] at h <;> try cases h
    case call span target method typeArgs args nullAware resolved =>
      obtain ⟨hTopLevel, hNamed⟩ := Bool.and_eq_true_iff.mp h
      obtain ⟨helper, keyword, resource, named⟩ := (hHelper _).mp hNamed
      exact .intro hBare ((callsTopLevel_iff rfl).mpr hTopLevel) helper resource named
  · rintro ⟨bare, topLevel, helper, resource, named⟩
    rw [isHelped, Phrase.asCall?, bare]
    exact Bool.and_eq_true_iff.mpr
      ⟨(callsTopLevel_iff rfl).mp topLevel, (hHelper _).mpr ⟨helper, _, resource, named⟩⟩

/-- What calls a helper makes no instance of a type itself. -/
theorem disposable?_of_callsHelper (h : CallsHelper catalogs e) :
    disposable? catalogs e = none := by
  refine Option.eq_none_iff_forall_not_mem.mpr fun type hType => ?_
  obtain ⟨bare, topLevel⟩ := h
  obtain ⟨(bareType | ⟨bareType, kind⟩), -⟩ := disposable?_eq_some_iff.mp hType
  · cases bare.symm.trans bareType
  · -- the same call would be resolved as a constructor and as a function
    cases bare.symm.trans bareType
    obtain ⟨function⟩ := topLevel
    rw [function] at kind
    simp at kind

/-- The resource of a variable is what its initial value makes. -/
theorem ofDeclarator?_eq_some_iff {d : Declarator} {resource : Resource} :
    ofDeclarator? catalogs d = some resource ↔
      ∃ span name value type, d = .declarator span name (.some value) ∧
        disposable? catalogs value = some type ∧ resource = ⟨name.text, type, span⟩ := by
  cases d with
  | declarator span name init =>
      cases init with
      | none => exact iff_of_false nofun nofun
      | some value =>
          constructor
          · intro h
            obtain ⟨type, hType, h⟩ := Option.bind_eq_some_iff.mp h
            cases h
            exact ⟨span, name, value, type, rfl, hType, rfl⟩
          · rintro ⟨_, _, _, type, hDeclarator, hType, rfl⟩
            cases hDeclarator
            exact Option.bind_eq_some_iff.mpr ⟨type, hType, rfl⟩

/-- A variable is made by a helper if its initial value calls one. -/
theorem helpedName?_eq_some_iff {d : Declarator} {variableName : String} :
    helpedName? catalogs d = some variableName ↔
      ∃ span name value, d = .declarator span name (.some value) ∧ name.text = variableName ∧
        CallsHelper catalogs value := by
  cases d with
  | declarator span name init =>
      cases init with
      | none => exact iff_of_false nofun nofun
      | some value =>
          constructor
          · intro h
            obtain ⟨⟨-, hHelped⟩, h⟩ := Option.ite_none_right_eq_some.mp h
            cases h
            exact ⟨span, name, value, rfl, rfl, isHelped_iff.mp hHelped⟩
          · rintro ⟨_, _, _, hDeclarator, rfl, helper⟩
            cases hDeclarator
            refine Option.ite_none_right_eq_some.mpr ⟨⟨?_, isHelped_iff.mpr helper⟩, rfl⟩
            rw [disposable?_of_callsHelper helper]
            rfl

end Resource

/-! ### Callbacks -/

namespace Phrase

theorem asFunction?_eq_some_iff {e : Expr} {callback : Closure} :
    e.asFunction? = some callback ↔ e.withoutParens = .function callback := by
  unfold asFunction?
  cases hBare : e.withoutParens <;> simp

theorem asIdentifier?_eq_some_iff {e : Expr} {identifier : Identifier} :
    e.asIdentifier? = some identifier ↔
      e.withoutParens = .identifier identifier.span identifier.name identifier.resolved := by
  obtain ⟨span, name, resolved⟩ := identifier
  unfold asIdentifier?
  cases hBare : e.withoutParens <;> simp

/-- The walk through a callback finds the variables on which the method is called. -/
theorem mem_walk_disposals_iff {callback : Closure} {methodName variableName : String} :
    variableName ∈ callback.walk (Resource.disposals methodName) () ↔
      callback.CallsOn methodName variableName := by
  rw [walk_eq_placedNodes, List.mem_flatMap]
  constructor
  · rintro ⟨⟨address, ⟨p⟩⟩, hPlaced, hName⟩
    obtain ⟨call, hCall, hFound⟩ := Option.bind_eq_some_iff.mp (Option.mem_toList.mp hName)
    obtain ⟨named, hOn⟩ := Option.ite_none_right_eq_some.mp hFound
    obtain ⟨receiver, hReceiver, rfl⟩ := Option.map_eq_some_iff.mp hOn
    clear hName hFound hOn
    cases p <;> try cases hCall
    case call.refl span target method typeArgs args nullAware resolved =>
      cases target with
      | none => cases hReceiver
      | some target =>
          exact .intro (mem_placedNodes_iff.mp hPlaced) named
            (asIdentifier?_eq_some_iff.mp hReceiver)
  · rintro ⟨call, named, bare⟩
    refine ⟨⟨_, _⟩, mem_placedNodes_iff.mpr call, Option.mem_toList.mpr ?_⟩
    have hReceiver : asIdentifier? _ = some ⟨_, variableName, _⟩ :=
      asIdentifier?_eq_some_iff.mpr bare
    refine Option.bind_eq_some_iff.mpr ⟨_, rfl, Option.ite_none_right_eq_some.mpr ⟨named, ?_⟩⟩
    exact Option.map_eq_some_iff.mpr ⟨_, hReceiver, rfl⟩

end Phrase

namespace Resource

variable {v : Vocabulary}

/-- A single argument without a label that is a function is the callback. -/
theorem soleFunction_eq_some_iff {call : Call} {args : Phrase (.list .argument)}
    (h : call.args = args.toList) {callback : Closure} :
    call.soleArgument?.bind Phrase.asFunction? = some callback ↔
      ∃ value, args = .cons (.argument none value) .nil ∧
        value.withoutParens = .function callback := by
  have hSole : ∀ value, call.soleArgument? = some value ↔
      args = .cons (.argument none value) .nil := by
    intro value
    unfold Call.soleArgument?
    rw [h]
    cases args with
    | nil => exact iff_of_false nofun nofun
    | cons arg rest =>
        cases rest with
        | nil =>
            cases arg with
            | argument label value =>
                cases label <;> simp [Phrase.toList, Phrase.items, Phrase.positional?]
        | cons => exact iff_of_false nofun nofun
  rw [Option.bind_eq_some_iff]
  simp only [hSole, Phrase.asFunction?_eq_some_iff]

/-- A call disposes of the variables on which its callback calls the method for that. -/
theorem mem_disposedNames_iff {call : Call} {variableName : String} :
    variableName ∈ disposedNames v call ↔
      call.method.text = v.cleanupRegistration ∧ call.isTopLevel = true ∧
        ∃ callback, call.soleArgument?.bind Phrase.asFunction? = some callback ∧
          callback.CallsOn v.disposalMethod variableName := by
  unfold disposedNames
  split
  case isTrue h =>
    cases call.soleArgument?.bind Phrase.asFunction? with
    | none => simp
    | some callback => simp [h, Phrase.mem_walk_disposals_iff]
  case isFalse h =>
    refine iff_of_false List.not_mem_nil fun hCall => h ⟨hCall.1, hCall.2.1⟩

end Resource

/-! ### Setup bodies -/

namespace Phrase

variable {setup : Body} {catalogs : Catalogs}

/-- The variables that are declared in a setup body outside of the builder closure. -/
def locals (setup : Body) : List (LocalPlace × Declarator) :=
  setup.outerHappenings.flatMap fun h =>
    (Resource.declared h.occurrence).zipIdx.map fun d => (⟨h.address, d.2⟩, d.1)

/-- The names of the variables that are released in a setup body. -/
def released (setup : Body) (catalogs : Catalogs) : List String :=
  setup.outerHappenings.flatMap fun h => Resource.released catalogs h.occurrence

/-- The listed variables are those that are declared outside of the builder closure. -/
theorem mem_locals_iff {place : LocalPlace} {d : Declarator} :
    (place, d) ∈ setup.locals ↔ setup.DeclaresAt place d := by
  rw [locals, List.mem_flatMap]
  constructor
  · rintro ⟨⟨address, occurrence, scope⟩, hMem, hLocal⟩
    obtain ⟨⟨declarator, i⟩, hEntry, hPair⟩ := List.mem_map.mp hLocal
    cases hPair
    obtain ⟨⟨⟨⟨p⟩, hNode, hOccurs⟩, outside⟩, -⟩ := mem_outerHappenings_iff.mp hMem
    cases hOccurs <;> try cases hEntry
    case locals => exact .intro hNode outside (List.mem_zipIdx_iff_getElem?.mp hEntry)
  · rintro ⟨declaration, outside, entry⟩
    have hHappens : setup.HappensAt place.declaration _ := ⟨⟨_, declaration, .locals⟩, outside⟩
    exact ⟨_, hHappens.mem_outerHappenings,
      List.mem_map.mpr ⟨(d, place.entry), List.mem_zipIdx_iff_getElem?.mpr entry, rfl⟩⟩

/-- A name is released iff a helper makes a variable of the name or a callback disposes of one. -/
theorem mem_released_iff {variableName : String} :
    variableName ∈ setup.released catalogs ↔
      setup.MadeByHelper catalogs variableName ∨
        setup.DisposedOf catalogs.vocabulary variableName := by
  rw [released, List.mem_flatMap]
  constructor
  · rintro ⟨⟨address, occurrence, scope⟩, hMem, hName⟩
    obtain ⟨⟨⟨⟨p⟩, hNode, hOccurs⟩, outside⟩, -⟩ := mem_outerHappenings_iff.mp hMem
    cases hOccurs <;> try cases hName
    case call =>
      obtain ⟨named, hTopLevel, callback, hCallback, disposal⟩ :=
        Resource.mem_disposedNames_iff.mp hName
      obtain ⟨value, rfl, bare⟩ := (Resource.soleFunction_eq_some_iff rfl).mp hCallback
      have hCalls := (callsTopLevel_iff rfl).mpr hTopLevel
      exact Or.inr (.intro hNode outside named hCalls bare disposal)
    case locals =>
      obtain ⟨d, hDeclared, hHelped⟩ := List.mem_filterMap.mp hName
      obtain ⟨i, hEntry⟩ := List.mem_iff_getElem?.mp hDeclared
      obtain ⟨span, name, value, rfl, named, helper⟩ :=
        Resource.helpedName?_eq_some_iff.mp hHelped
      have declared : setup.DeclaresAt ⟨address, i⟩ _ := .intro hNode outside hEntry
      exact Or.inl (.intro declared named helper)
  · rintro (⟨⟨declaration, outside, entry⟩, named, helper⟩ |
      ⟨call, outside, named, topLevel, bare, disposal⟩)
    · have hHappens : setup.HappensAt _ _ := ⟨⟨_, declaration, .locals⟩, outside⟩
      refine ⟨_, hHappens.mem_outerHappenings,
        List.mem_filterMap.mpr ⟨_, List.mem_of_getElem? entry, ?_⟩⟩
      exact Resource.helpedName?_eq_some_iff.mpr ⟨_, _, _, rfl, named, helper⟩
    · have hHappens : setup.HappensAt _ _ := ⟨⟨_, call, .call⟩, outside⟩
      refine ⟨_, hHappens.mem_outerHappenings, Resource.mem_disposedNames_iff.mpr
        ⟨named, (callsTopLevel_iff rfl).mp topLevel, _, ?_, disposal⟩⟩
      exact (Resource.soleFunction_eq_some_iff rfl).mpr ⟨_, rfl, bare⟩

/-- The finding for a variable that holds an instance of a disposable type, unless its name is
released. -/
def leak? (setup : Body) (catalogs : Catalogs) (d : Declarator) : Option Diagnostic :=
  ((Resource.ofDeclarator? catalogs d).filter fun resource =>
    !(setup.released catalogs).contains resource.name).map (leakWarning catalogs.vocabulary)

/-- The findings in a setup body, each with the place of the variable. -/
def leaks (setup : Body) (catalogs : Catalogs) : List (LocalPlace × Diagnostic) :=
  foundAt Prod.fst (fun l => setup.leak? catalogs l.2) setup.locals

/-- The listed findings are the leaks. -/
theorem mem_leaks_iff {place : LocalPlace} {d : Diagnostic} :
    (place, d) ∈ setup.leaks catalogs ↔ setup.Leaks catalogs place d := by
  rw [leaks, mem_foundAt_iff]
  constructor
  · rintro ⟨⟨_, declarator⟩, hLocal, rfl, hLeak⟩
    obtain ⟨resource, hResource, rfl⟩ := Option.map_eq_some_iff.mp hLeak
    obtain ⟨hResource, hReleased⟩ := Option.filter_eq_some_iff.mp hResource
    obtain ⟨span, name, value, type, rfl, hType, rfl⟩ :=
      Resource.ofDeclarator?_eq_some_iff.mp hResource
    obtain ⟨constructs, entry, disposable, starts⟩ := Resource.disposable?_eq_some_iff.mp hType
    rw [Bool.not_eq_true', List.contains_eq_mem, decide_eq_false_iff_not, mem_released_iff,
      not_or] at hReleased
    exact .intro (mem_locals_iff.mp hLocal) constructs disposable starts hReleased.1 hReleased.2
  · rintro ⟨declared, constructs, disposable, starts, notHelped, notDisposed⟩
    refine ⟨_, mem_locals_iff.mpr declared, rfl, Option.map_eq_some_iff.mpr ⟨_, ?_, rfl⟩⟩
    refine Option.filter_eq_some_iff.mpr ⟨?_, ?_⟩
    · exact Resource.ofDeclarator?_eq_some_iff.mpr ⟨_, _, _, _, rfl,
        Resource.disposable?_eq_some_iff.mpr ⟨constructs, _, disposable, starts⟩, rfl⟩
    · rw [Bool.not_eq_true', List.contains_eq_mem, decide_eq_false_iff_not, mem_released_iff]
      exact not_or.mpr ⟨notHelped, notDisposed⟩

end Phrase

/-- A place comes before another one if its declaration does, or if both are in one declaration and
its variable comes first. -/
def LocalPlace.Precedes (first second : LocalPlace) : Prop :=
  first.declaration < second.declaration ∨
    first.declaration = second.declaration ∧ first.entry < second.entry

theorem LocalPlace.Precedes.ne {first second : LocalPlace} (h : first.Precedes second) :
    first ≠ second := by
  rintro rfl
  rcases h with h | ⟨-, h⟩
  · exact List.lt_irrefl _ h
  · exact Nat.lt_irrefl _ h

/-- Variables come declaration by declaration. -/
theorem Phrase.pairwise_locals (setup : Body) :
    (setup.locals.map Prod.fst).Pairwise LocalPlace.Precedes := by
  have hHappenings := List.pairwise_map.mp setup.pairwise_outerHappenings
  rw [locals, List.map_flatMap, List.pairwise_flatMap]
  refine ⟨fun h _ => ?_, hHappenings.imp fun hlt first hFirst second hSecond => ?_⟩
  · rw [List.map_map, List.pairwise_map]
    exact (pairwise_zipIdx _).imp fun hlt => Or.inr ⟨rfl, hlt⟩
  · rw [List.map_map] at hFirst hSecond
    obtain ⟨_, -, rfl⟩ := List.mem_map.mp hFirst
    obtain ⟨_, -, rfl⟩ := List.mem_map.mp hSecond
    exact Or.inl hlt

/-- The variables are those of the declarations outside of the builder closure. -/
theorem Phrase.map_snd_locals (setup : Body) :
    setup.locals.map Prod.snd =
      setup.outerHappenings.flatMap fun h => Resource.declared h.occurrence := by
  rw [locals, List.map_flatMap]
  refine List.flatMap_congr fun h _ => ?_
  rw [List.map_map]
  exact List.zipIdx_map_fst 0 _

/-- The findings of the rule are those for the leaks. -/
theorem Component.checkLifecycle_eq (catalogs : Catalogs) (c : Component) :
    Rule.checkLifecycle catalogs c =
      c.body?.elim [] fun setup => (setup.leaks catalogs).map Prod.snd := by
  rw [Rule.checkLifecycle, setupOccurrences_eq]
  cases c.body? with
  | none => rfl
  | some setup =>
      have hDeclared : ((setup.outerHappenings.map fun h => (h.occurrence, h.scope)).map
          (·.1)).flatMap Resource.declared = setup.locals.map Prod.snd := by
        rw [setup.map_snd_locals, List.map_map, List.flatMap_map]
        rfl
      have hReleased : ((setup.outerHappenings.map fun h => (h.occurrence, h.scope)).map
          (·.1)).flatMap (Resource.released catalogs) = setup.released catalogs := by
        rw [List.map_map, List.flatMap_map]
        rfl
      simp only [Option.elim_some, hDeclared, hReleased]
      rw [Phrase.leaks, map_snd_foundAt, List.filterMap_map, List.filter_filterMap,
        List.map_filterMap]
      rfl

/-- The findings about resources in a component are, each once, those for the variables with an
instance of a disposable type that is never released. -/
theorem Component.checkComponent_resourceLifecycle (catalogs : Catalogs) (c : Component) :
    ∃ trace : List (LocalPlace × Diagnostic),
      Rule.resourceLifecycle.checkComponent catalogs c = trace.map Prod.snd ∧
        (trace.map Prod.fst).Nodup ∧
        ∀ place d, (place, d) ∈ trace ↔
          ∃ setup, c.body? = some setup ∧ setup.Leaks catalogs place d := by
  rw [Rule.checkComponent, c.checkLifecycle_eq catalogs]
  cases c.body? with
  | none => exact ⟨[], rfl, List.nodup_nil, by simp⟩
  | some setup =>
      refine ⟨setup.leaks catalogs, rfl, ?_, fun place d => ?_⟩
      · exact (pairwise_foundAt setup.pairwise_locals).imp fun hPrecedes => hPrecedes.ne
      · simp [Phrase.mem_leaks_iff]

end SetupLint
