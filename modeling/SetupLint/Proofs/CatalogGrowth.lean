import SetupLint.Proofs.Roots
import SetupLint.Proofs.RuleFindings
import SetupLint.Proofs.ShownFindings

/-! Larger catalogs. The catalogs by which something is found only ever add findings when they
grow, and the keywords by which helpers are exempted only ever take findings of leaked resources
away. A finding may tell another story with larger catalogs, because a type may collide earlier, so
findings are compared by their rules and places. -/
namespace SetupLint

/-- What fails to be `none` for one function is the same for the other, so it keeps less. -/
theorem filterMap_sublist_filterMap {α β : Type} {f g : α → Option β}
    (h : ∀ a b, f a = some b → g a = some b) (l : List α) :
    (l.filterMap f).Sublist (l.filterMap g) := by
  rw [List.filterMap_eq_flatMap_toList, List.filterMap_eq_flatMap_toList]
  refine List.Sublist.flatMap_right l fun a _ => ?_
  cases hf : f a with
  | none => exact List.nil_sublist _
  | some b => rw [h a b hf]

namespace Catalog

variable {c larger : Catalog} {value : String}

/-- A larger catalog contains at least as much. -/
theorem contains_mono (h : c.entries ⊆ larger.entries) (hValue : c.contains value = true) :
    larger.contains value = true :=
  decide_eq_true (h (of_decide_eq_true hValue))

theorem hasPrefixOf_mono (h : c.entries ⊆ larger.entries) (hValue : c.hasPrefixOf value = true) :
    larger.hasPrefixOf value = true := by
  obtain ⟨entry, hEntry, hPrefix⟩ := List.any_eq_true.mp hValue
  exact List.any_eq_true.mpr ⟨entry, h hEntry, hPrefix⟩

theorem hasFragmentOf_mono (h : c.entries ⊆ larger.entries)
    (hValue : c.hasFragmentOf value = true) : larger.hasFragmentOf value = true := by
  obtain ⟨entry, hEntry, hFragment⟩ := List.any_eq_true.mp hValue
  exact List.any_eq_true.mpr ⟨entry, h hEntry, hFragment⟩

/-- What adds more entries makes the larger catalog. -/
theorem entries_extend_subset (c : Catalog) {more most : List String} (h : more ⊆ most) :
    (c.extend more).entries ⊆ (c.extend most).entries :=
  List.append_subset.mpr
    ⟨List.subset_append_left _ _, List.Subset.trans h (List.subset_append_right _ _)⟩

end Catalog

/-- The rule and the place of a finding. -/
def Diagnostic.site (d : Diagnostic) : String × Span := (d.rule, d.span)

/-- Catalogs with the same words, of which the larger ones detect at least as much. Nothing is said
about the keywords of helpers, which detect nothing. -/
structure Catalogs.DetectsWithin (c larger : Catalogs) : Prop where
  vocabulary : c.vocabulary = larger.vocabulary
  compositionPrimitives : c.compositionPrimitives.entries ⊆ larger.compositionPrimitives.entries
  disposablePrefixes : c.disposablePrefixes.entries ⊆ larger.disposablePrefixes.entries
  mutatingMethods : c.mutatingMethods.entries ⊆ larger.mutatingMethods.entries
  primitiveTypes : c.primitiveTypes.entries ⊆ larger.primitiveTypes.entries
  wrapperTypes : c.wrapperTypes.entries ⊆ larger.wrapperTypes.entries

variable {c larger : Catalogs}

/-- With fewer keywords fewer functions are helpers. -/
theorem Catalogs.isResourceHelper_mono (hVocabulary : c.vocabulary = larger.vocabulary)
    (hKeywords : larger.resourceKeywords.entries ⊆ c.resourceKeywords.entries) {callee : String}
    (h : larger.isResourceHelper callee = true) : c.isResourceHelper callee = true := by
  unfold isResourceHelper at h ⊢
  rw [Bool.and_eq_true] at h ⊢
  rw [hVocabulary]
  exact ⟨h.1, Catalog.hasFragmentOf_mono hKeywords h.2⟩

namespace Resource

variable (hDetects : c.DetectsWithin larger)
include hDetects

/-- What is disposable stays so with more entries. -/
theorem disposable?_mono {e : Expr} {type : String} (h : disposable? c e = some type) :
    disposable? larger e = some type := by
  obtain ⟨hType, hPrefix⟩ := Option.filter_eq_some_iff.mp h
  exact Option.filter_eq_some_iff.mpr
    ⟨hType, Catalog.hasPrefixOf_mono hDetects.disposablePrefixes hPrefix⟩

/-- A variable with a resource keeps it in larger catalogs. -/
theorem ofDeclarator?_mono (d : Declarator) (resource : Resource)
    (h : ofDeclarator? c d = some resource) : ofDeclarator? larger d = some resource := by
  obtain ⟨init, hInit, h⟩ := Option.bind_eq_some_iff.mp h
  obtain ⟨type, hType, h⟩ := Option.bind_eq_some_iff.mp h
  exact Option.bind_eq_some_iff.mpr
    ⟨init, hInit, Option.bind_eq_some_iff.mpr ⟨type, disposable?_mono hDetects hType, h⟩⟩

variable (hKeywords : larger.resourceKeywords.entries ⊆ c.resourceKeywords.entries)
include hKeywords

/-- With more keywords and fewer resources a helper makes more of the variables. -/
theorem helpedName?_anti (d : Declarator) (name : String) (h : helpedName? larger d = some name) :
    helpedName? c d = some name := by
  obtain ⟨init, hInit, h⟩ := Option.bind_eq_some_iff.mp h
  obtain ⟨⟨hPlain, hHelped⟩, h⟩ := Option.ite_none_right_eq_some.mp h
  have hPlain' : (disposable? c init).isNone = true := by
    cases hType : disposable? c init with
    | none => rfl
    | some type =>
        rw [disposable?_mono hDetects hType] at hPlain
        cases hPlain
  have hHelped' : isHelped c init = true := by
    obtain ⟨call, hCall, hHelper⟩ := (Option.any_eq_true _ _).mp hHelped
    rw [Bool.and_eq_true] at hHelper
    have hCallee := Catalogs.isResourceHelper_mono hDetects.vocabulary hKeywords hHelper.2
    exact (Option.any_eq_true _ _).mpr ⟨call, hCall, Bool.and_eq_true_iff.mpr ⟨hHelper.1, hCallee⟩⟩
  exact Option.bind_eq_some_iff.mpr
    ⟨init, hInit, Option.ite_none_right_eq_some.mpr ⟨⟨hPlain', hHelped'⟩, h⟩⟩

/-- With fewer keywords of helpers fewer variables are released. -/
theorem released_subset (occurrence : Occurrence) :
    released larger occurrence ⊆ released c occurrence := by
  cases occurrence with
  | locals decl =>
      exact (filterMap_sublist_filterMap (helpedName?_anti hDetects hKeywords) _).subset
  | call call =>
      show disposedNames larger.vocabulary call ⊆ disposedNames c.vocabulary call
      rw [hDetects.vocabulary]
      exact List.Subset.refl _
  | _ => exact List.Subset.refl _

end Resource

namespace Rule

/-- A type that collides goes on to collide, perhaps with another type. -/
theorem isSome_directCollision?_mono (hDetects : c.DetectsWithin larger) (type : TypeRef)
    (h : (directCollision? c type).isSome) : (directCollision? larger type).isSome := by
  unfold directCollision? at h ⊢
  split at h
  · rename_i hWrapper
    rw [if_pos (Catalog.contains_mono hDetects.wrapperTypes hWrapper), Option.isSome_map,
      List.find?_isSome]
    rw [Option.isSome_map, List.find?_isSome] at h
    obtain ⟨arg, hArg, hCommon⟩ := h
    exact ⟨arg, hArg, Catalog.contains_mono hDetects.primitiveTypes hCommon⟩
  · cases h

mutual

/-- A type that collides collides with larger catalogs, too, though maybe elsewhere in it. -/
theorem isSome_collision?_mono (hDetects : c.DetectsWithin larger) : (type : TypeRef) →
    (collision? c type).isSome → (collision? larger type).isSome
  | ⟨span, name, args, nullable⟩, h => by
    have hDirect := isSome_directCollision?_mono hDetects ⟨span, name, args, nullable⟩
    have hArgs := isSome_firstCollision?_mono hDetects args
    rw [collision?, Option.orElse_eq_orElse, Option.orElse_eq_or, Option.isSome_or,
      Bool.or_eq_true] at h ⊢
    exact h.imp hDirect hArgs

/-- Some types that collide go on to do so, perhaps an earlier one first. -/
theorem isSome_firstCollision?_mono (hDetects : c.DetectsWithin larger) :
    (types : List TypeRef) → (firstCollision? c types).isSome →
      (firstCollision? larger types).isSome
  | [], h => h
  | type :: types, h => by
    have hFirst := isSome_collision?_mono hDetects type
    have hRest := isSome_firstCollision?_mono hDetects types
    rw [firstCollision?, Option.orElse_eq_orElse, Option.orElse_eq_or, Option.isSome_or,
      Bool.or_eq_true] at h ⊢
    exact h.imp hFirst hRest

end

/-- What a type is reported for is in the message only. -/
theorem map_site_keyFinding? (catalogs : Catalogs) (call : Call) (type : TypeRef) :
    (keyFinding? catalogs call type).map Diagnostic.site =
      (collision? catalogs type).map fun _ => (dependencyKey.code, type.span) :=
  Option.map_map ..

variable (hDetects : c.DetectsWithin larger)
include hDetects

/-- More primitives make more findings, at the same places and in the same order. -/
theorem checkComposition_sublist (component : Component) :
    (checkComposition c component).Sublist (checkComposition larger component) := by
  refine filterMap_sublist_filterMap ?_ _
  rintro ⟨occurrence, scope⟩ d h
  cases occurrence with
  | call call =>
      obtain ⟨hCall, h⟩ := Option.ite_none_right_eq_some.mp h
      simp only [Bool.and_eq_true] at hCall
      refine Option.ite_none_right_eq_some.mpr ⟨?_, h⟩
      simp only [Bool.and_eq_true]
      exact ⟨⟨hCall.1.1, Catalog.contains_mono hDetects.compositionPrimitives hCall.1.2⟩, hCall.2⟩
  | _ => cases h

/-- More resources are made, and fewer of them are released. -/
theorem checkLifecycle_sublist
    (hKeywords : larger.resourceKeywords.entries ⊆ c.resourceKeywords.entries)
    (component : Component) :
    (checkLifecycle c component).Sublist (checkLifecycle larger component) := by
  unfold checkLifecycle
  rw [hDetects.vocabulary]
  refine List.Sublist.map _ ?_
  have hReleased : ∀ occurrences : List Occurrence,
      occurrences.flatMap (Resource.released larger) ⊆
        occurrences.flatMap (Resource.released c) := by
    intro occurrences name hName
    obtain ⟨occurrence, hOccurrence, hName⟩ := List.mem_flatMap.mp hName
    exact List.mem_flatMap.mpr
      ⟨occurrence, hOccurrence, Resource.released_subset hDetects hKeywords occurrence hName⟩
  have hResources := filterMap_sublist_filterMap (Resource.ofDeclarator?_mono hDetects)
    ((component.setupOccurrences.map (·.1)).flatMap Resource.declared)
  refine (hResources.filter _).trans (List.monotone_filter_right _ fun resource hLeaks => ?_)
  rw [Bool.not_eq_true', List.contains_eq_mem, decide_eq_false_iff_not] at hLeaks ⊢
  exact fun hName => hLeaks (hReleased _ hName)

/-- A change of a held value stays one with more names of methods. -/
theorem mutationAt?_mono (cascade : Bool) {category : Category} (p : Phrase category)
    (d : Diagnostic) (h : mutationAt? c cascade p = some d) :
    mutationAt? larger cascade p = some d := by
  unfold mutationAt? at h
  split at h
  · rw [mutationAt?, ← hDetects.vocabulary]
    exact h
  · rw [mutationAt?, ← hDetects.vocabulary]
    exact h
  · obtain ⟨call, hCall, h⟩ := Option.bind_eq_some_iff.mp h
    obtain ⟨hMutates, h⟩ := Option.ite_none_right_eq_some.mp h
    rw [Bool.and_eq_true] at hMutates
    have hMethod := Catalog.contains_mono hDetects.mutatingMethods hMutates.1
    rw [mutationAt?, hCall, Option.bind_some, mutationFinding?, ← hDetects.vocabulary]
    exact Option.ite_none_right_eq_some.mpr ⟨Bool.and_eq_true_iff.mpr ⟨hMethod, hMutates.2⟩, h⟩
  · cases h

/-- Which types of a call are reported depends on whether they collide only. -/
theorem map_site_keyFindings_sublist (call : Call) :
    ((keyFindings c call).map Diagnostic.site).Sublist
      ((keyFindings larger call).map Diagnostic.site) := by
  unfold keyFindings
  rw [hDetects.vocabulary]
  split
  · rw [List.map_filterMap, List.map_filterMap]
    refine filterMap_sublist_filterMap (fun type site h => ?_) _
    rw [map_site_keyFinding?] at h ⊢
    obtain ⟨collision, hCollision, hSite⟩ := Option.map_eq_some_iff.mp h
    obtain ⟨other, hOther⟩ := Option.isSome_iff_exists.mp
      (isSome_collision?_mono hDetects type (hCollision ▸ Option.isSome_some))
    exact Option.map_eq_some_iff.mpr ⟨other, hOther, hSite⟩
  · exact List.Sublist.refl _

/-- More names of methods make more findings about held values. -/
theorem map_site_checkHeldValues_sublist (unit : CompilationUnit) :
    ((checkHeldValues c unit).map Diagnostic.site).Sublist
      ((checkHeldValues larger unit).map Diagnostic.site) := by
  refine unit.map_walk_sublist (fun p i cascade => ?_) (fun p cascade => ?_) false
  · unfold Walk.within heldValueWalk
    rw [hDetects.vocabulary]
  · show (Option.toList _).map _ |>.Sublist ((Option.toList _).map _)
    refine List.Sublist.map _ ?_
    cases h : mutationAt? c cascade p with
    | none => exact List.nil_sublist _
    | some d => rw [mutationAt?_mono hDetects cascade p d h]

/-- More wrappers and common types make more findings about keys. Those that were there may name
other types, so only rules and places are compared. -/
theorem map_site_checkDependencies_sublist (unit : CompilationUnit) :
    ((checkDependencies c unit).map Diagnostic.site).Sublist
      ((checkDependencies larger unit).map Diagnostic.site) := by
  unfold checkDependencies
  refine unit.map_walk_sublist (fun _ _ _ => ?_) (fun p _ => ?_) ()
  · rfl
  show ((p.call?.elim [] _).map _).Sublist ((p.call?.elim [] _).map _)
  cases p.call? with
  | none => exact List.Sublist.refl _
  | some call => exact map_site_keyFindings_sublist hDetects call

/-- With larger catalogs a rule finds more. The rule about leaked resources does if there are no
more keywords, for the other rules the keywords do not matter. -/
theorem map_site_findings_sublist (r : Rule) (unit : CompilationUnit)
    (hKeywords : r = .resourceLifecycle →
      larger.resourceKeywords.entries ⊆ c.resourceKeywords.entries) :
    ((r.findings c unit).map Diagnostic.site).Sublist
      ((r.findings larger unit).map Diagnostic.site) := by
  have hComponent : ∀ component : Component,
      (r.checkComponent c component).Sublist (r.checkComponent larger component) := by
    intro component
    cases r with
    | conditionalComposition => exact checkComposition_sublist hDetects component
    | reactiveProps =>
        show (checkProps c component).Sublist (checkProps larger component)
        rw [checkProps, checkProps, hDetects.vocabulary]
    | resourceLifecycle => exact checkLifecycle_sublist hDetects (hKeywords rfl) component
    | _ => exact List.Sublist.refl _
  have hUnit : ((r.checkUnit c unit).map Diagnostic.site).Sublist
      ((r.checkUnit larger unit).map Diagnostic.site) := by
    cases r with
    | heldValue => exact map_site_checkHeldValues_sublist hDetects unit
    | dependencyKey => exact map_site_checkDependencies_sublist hDetects unit
    | _ => exact List.Sublist.refl _
  unfold findings
  rw [hDetects.vocabulary, List.map_append, List.map_append]
  refine List.Sublist.append (List.Sublist.map _ ?_) hUnit
  exact List.Sublist.flatMap_right _ fun component _ => hComponent component

end Rule

namespace Linter

/-- The rules and the places of what a linter reports with some catalogs. -/
def sites (l : Linter) (catalogs : Catalogs) (unit : CompilationUnit) : List (String × Span) :=
  ({ l with catalogs }.lint unit).diagnostics.map Diagnostic.site

/-- Whether a finding is shown depends on its rule and its place only. -/
theorem sites_eq (l : Linter) (catalogs : Catalogs) (unit : CompilationUnit) :
    l.sites catalogs unit =
      (l.enabled.flatMap fun r => (r.findings catalogs unit).map Diagnostic.site).filter
        fun site => shows unit.source site.1 site.2.start := by
  unfold sites
  rw [diagnostics_lint, ← List.map_flatMap, List.filter_map]
  rfl

/-- Larger catalogs report at least the same rules at the same places. -/
theorem sites_sublist (l : Linter) (unit : CompilationUnit) (hDetects : c.DetectsWithin larger)
    (hKeywords : larger.resourceKeywords.entries ⊆ c.resourceKeywords.entries) :
    (l.sites c unit).Sublist (l.sites larger unit) := by
  rw [sites_eq, sites_eq]
  refine List.Sublist.filter _ (List.Sublist.flatMap_right _ fun r _ => ?_)
  exact Rule.map_site_findings_sublist hDetects r unit fun _ => hKeywords

/-- Whatever the keywords are, apart from leaked resources as much is reported. -/
theorem filter_sites_sublist (l : Linter) (unit : CompilationUnit)
    (hDetects : c.DetectsWithin larger) :
    ((l.sites c unit).filter fun site => site.1 ≠ Rule.resourceLifecycle.code).Sublist
      ((l.sites larger unit).filter fun site => site.1 ≠ Rule.resourceLifecycle.code) := by
  have hSites (catalogs : Catalogs) :
      (l.sites catalogs unit).filter (fun site => site.1 ≠ Rule.resourceLifecycle.code) =
        (l.enabled.flatMap fun r => ((r.findings catalogs unit).map Diagnostic.site).filter
          fun site => site.1 ≠ Rule.resourceLifecycle.code).filter
            fun site => shows unit.source site.1 site.2.start := by
    rw [sites_eq, List.filter_comm, List.filter_flatMap]
  rw [hSites, hSites]
  refine List.Sublist.filter _ ?_
  refine List.Sublist.flatMap_right _ fun r _ => ?_
  by_cases hLifecycle : r = .resourceLifecycle
  · have hNone : (((r.findings c unit).map Diagnostic.site).filter fun site =>
        site.1 ≠ Rule.resourceLifecycle.code) = [] := by
      rw [List.filter_eq_nil_iff]
      intro site hSite
      obtain ⟨d, hd, rfl⟩ := List.mem_map.mp hSite
      have hCode : d.rule = r.code := (Rule.reports_of_mem_findings d hd).1
      simp [Diagnostic.site, hCode, hLifecycle]
    rw [hNone]
    exact List.nil_sublist _
  · exact (Rule.map_site_findings_sublist hDetects r unit fun h => absurd h hLifecycle).filter _

end Linter

/-- Extensions with the same words, of which the larger ones add at least as much to each catalog
that detects something, and no more keywords of helpers. -/
structure CatalogExtensions.Within (e larger : CatalogExtensions) : Prop where
  vocabulary : (Catalogs.extended e).vocabulary = (Catalogs.extended larger).vocabulary
  compositionPrimitives : e.compositionPrimitives ⊆ larger.compositionPrimitives
  disposablePrefixes : e.disposablePrefixes ⊆ larger.disposablePrefixes
  mutatingMethods : e.mutatingMethods ⊆ larger.mutatingMethods
  primitiveTypes : e.primitiveTypes ⊆ larger.primitiveTypes
  wrapperTypes : e.wrapperTypes ⊆ larger.wrapperTypes
  resourceKeywords : larger.resourceKeywords ⊆ e.resourceKeywords

/-- Larger extensions make catalogs that detect at least as much. -/
theorem CatalogExtensions.Within.detectsWithin {e larger : CatalogExtensions}
    (h : e.Within larger) :
    (Catalogs.extended e).DetectsWithin (Catalogs.extended larger) where
  vocabulary := h.vocabulary
  compositionPrimitives := Catalog.entries_extend_subset _ h.compositionPrimitives
  disposablePrefixes := Catalog.entries_extend_subset _ h.disposablePrefixes
  mutatingMethods := Catalog.entries_extend_subset _ h.mutatingMethods
  primitiveTypes := Catalog.entries_extend_subset _ h.primitiveTypes
  wrapperTypes := Catalog.entries_extend_subset _ h.wrapperTypes

/-- What is reported with some extensions is reported with larger ones, in the same order. The
keywords of helpers matter to the rule about leaked resources only. -/
theorem Linter.sites_extended_sublist (l : Linter) (unit : CompilationUnit)
    {e larger : CatalogExtensions} (h : e.Within larger) :
    (l.sites (.extended e) unit).Sublist (l.sites (.extended larger) unit) ∧
      ∀ keywords : List String,
        (l.sites (.extended { e with resourceKeywords := keywords }) unit).filter
            (fun site => site.1 ≠ Rule.resourceLifecycle.code) =
          (l.sites (.extended e) unit).filter
            fun site => site.1 ≠ Rule.resourceLifecycle.code := by
  constructor
  · exact l.sites_sublist unit h.detectsWithin (Catalog.entries_extend_subset _ h.resourceKeywords)
  · intro keywords
    have hSame (c : Catalogs) (entries : Catalog) :
        c.DetectsWithin { c with resourceKeywords := entries } ∧
          Catalogs.DetectsWithin { c with resourceKeywords := entries } c := by
      constructor <;> constructor <;> first | rfl | exact List.Subset.refl _
    have hKeywords := hSame (.extended e) (Catalogs.builtin.resourceKeywords.extend keywords)
    exact (l.filter_sites_sublist unit hKeywords.2).antisymm
      (l.filter_sites_sublist unit hKeywords.1)

/-- A component that makes a socket and calls a helper for a second one, and pushes to a held
value. -/
def socketUnit : CompilationUnit :=
  let call (span : Span) (target : Phrase (.option .expr)) (method : String) : Expr :=
    .call span target ⟨method, .zero⟩ [] .nil false none
  let socket : Expr := .create .zero ⟨.zero, "Socket", [], false⟩ none .nil false
  let held : Expr := .property .zero (.identifier .zero "log" none) ⟨"value", .zero⟩ false
  let binding (span : Span) (name : String) (init : Expr) : Stmt :=
    .variableStmt (.variableDecl span [] none
      (.ofList [.declarator span ⟨name, .zero⟩ (.some init)]))
  let statements : List Stmt :=
    [binding ⟨10, 20⟩ "first" socket,
     binding ⟨30, 40⟩ "first" (call ⟨32, 40⟩ .none "useSocketHandle"),
     .expressionStmt ⟨50, 60⟩ (call ⟨50, 59⟩ (.some held) "push")]
  { path := "lib/socket.dart"
    declarations := [.class
      { span := .zero
        name := ⟨"Feed", .zero⟩
        superclass := some ⟨.zero, "CompositionWidget", [], false⟩
        isAbstract := false
        members := [.method
          { span := .zero
            name := ⟨"setup", .zero⟩
            kind := .method
            keywords := []
            returnType := none
            params := .nil
            body := .body .zero .sync (.blockBody (.block .zero (.ofList statements))) }] }] }

/-- The socket leaks once sockets are resources and `Handle` is no keyword of helpers. -/
theorem sites_socketUnit :
    let e : CatalogExtensions := { resourceKeywords := ["Handle"] }
    let larger : CatalogExtensions :=
      { disposablePrefixes := ["Socket"], mutatingMethods := ["push"] }
    (({} : Linter).sites (.extended e) socketUnit).Sublist
        (({} : Linter).sites (.extended larger) socketUnit) ∧
      ({} : Linter).sites (.extended e) socketUnit = [] ∧
      ({} : Linter).sites (.extended larger) socketUnit =
        [("controller-lifecycle", ⟨10, 20⟩), ("shallow-reactivity", ⟨50, 59⟩)] ∧
      ({} : Linter).sites (.extended { larger with resourceKeywords := ["Handle"] }) socketUnit =
        [("shallow-reactivity", ⟨50, 59⟩)] :=
  have hWithin : CatalogExtensions.Within { resourceKeywords := ["Handle"] }
      { disposablePrefixes := ["Socket"], mutatingMethods := ["push"] } := by
    constructor <;> decide
  ⟨(Linter.sites_extended_sublist {} socketUnit hWithin).1, by decide, by decide, by decide⟩

end SetupLint
