import Mathlib.Data.List.Sort
import SetupLint.Proofs.PlacedReads
import SetupLint.Proofs.RuleFindings
import SetupLint.Proofs.ShownFindings
import SetupLint.Proofs.Unresolved

/-! Runs on a unit in which identifiers lose what they are resolved to. Each loss costs at most one
finding, the one for the prop that this identifier reads directly, and nothing else changes. -/
namespace SetupLint

variable (lost : Selection)

/-! ### What is lost -/

/-- Each root of a member loses what is selected of it. -/
theorem Member.roots_unresolve (m : Member) :
    (m.unresolve lost).roots = m.roots.mapIdx fun i root => root.unresolve (lost.inPart i) := by
  cases m <;> rfl

/-- At an address of a declaration stands what stood there, less what is selected of it. -/
theorem Declaration.nodeAt?_unresolve (d : Declaration) (address : Address) :
    (d.unresolve lost).nodeAt? address =
      (d.nodeAt? address).map (Node.unresolve (lost.below address)) := by
  cases d with
  | «class» c =>
      match address with
      | [] => rfl
      | [_] => rfl
      | j :: k :: address =>
          show ((c.members.mapIdx _)[j]?.bind _).bind _ = ((c.members[j]?.bind _).bind _).map _
          rw [List.getElem?_mapIdx]
          cases c.members[j]? with
          | none => rfl
          | some m =>
              show (m.unresolve (lost.inPart j)).roots[k]?.bind _ = (m.roots[k]?.bind _).map _
              rw [Member.roots_unresolve, List.getElem?_mapIdx]
              cases m.roots[k]? with
              | none => rfl
              | some root => exact root.phrase.at?_unresolve ((lost.inPart j).inPart k) address
  | function f => exact f.at?_unresolve lost address
  | «variable» v => exact v.at?_unresolve lost address

/-- At an address of a unit stands what stood there, less what is selected of it. -/
theorem CompilationUnit.nodeAt?_unresolve (u : CompilationUnit) (address : Address) :
    (u.unresolve lost).nodeAt? address =
      (u.nodeAt? address).map (Node.unresolve (lost.below address)) := by
  cases address with
  | nil => rfl
  | cons i address =>
      show (u.declarations.mapIdx _)[i]?.bind _ = (u.declarations[i]?.bind _).map _
      rw [List.getElem?_mapIdx]
      cases u.declarations[i]? with
      | none => rfl
      | some d => exact d.nodeAt?_unresolve (lost.inPart i) address

/-! ### Reads -/

/-- A read at an address is still found if the identifiers at some addresses are not resolved. -/
def Selection.keeps (read : Address × DirectRead) : Bool :=
  !(read.2.byIdentifier && lost read.1)

namespace Phrase

variable {v : Vocabulary} {owner : String}

/-- The builder closure stays where it is. -/
theorem insideBuilder_unresolve {setup : Body} {address : Address} :
    (setup.unresolve lost).InsideBuilder address ↔ setup.InsideBuilder address := by
  rw [insideBuilder_iff, insideBuilder_iff, map_unresolve lost (builderAddress?_change rfl)]

/-- A phrase that loses resolutions reads what it read, unless it is an identifier that loses its
own. -/
theorem directRead?_unresolve {c : Category} (p : Phrase c) :
    (p.unresolve lost).occurrence?.bind (Rule.directRead? v owner) =
      (p.occurrence?.bind (Rule.directRead? v owner)).filter fun read =>
        !(read.byIdentifier && lost []) := by
  cases p <;> try rfl
  case identifier span name resolved =>
    have hUnresolved : Rule.identifierRead? v owner ⟨span, name, none⟩ = none := by
      simp [Rule.identifierRead?]
    show (Rule.identifierRead? v owner ⟨span, name, if lost [] then none else resolved⟩).map _ =
      ((Rule.identifierRead? v owner ⟨span, name, resolved⟩).map _).filter _
    cases lost [] with
    | false =>
        simp only [Bool.false_eq_true, if_false]
        cases Rule.identifierRead? v owner ⟨span, name, resolved⟩ <;> rfl
    | true =>
        simp only [if_true, hUnresolved, Option.map_none]
        cases Rule.identifierRead? v owner ⟨span, name, resolved⟩ <;> rfl
  case property span target name nullAware =>
    have hRead : Rule.propertyRead? v span (target.unresolve (lost.inPart 0)) name =
        Rule.propertyRead? v span target name := by
      unfold Rule.propertyRead?
      rw [map_unresolve (lost.inPart 0) (isThis_change .toUnresolved)]
    show (Rule.propertyRead? v span (target.unresolve (lost.inPart 0)) name).map _ =
      ((Rule.propertyRead? v span target name).map _).filter _
    rw [hRead]
    cases Rule.propertyRead? v span target name <;> rfl

/-- A read is lost iff it is one through an identifier that loses its resolution. -/
theorem mem_directReads_unresolve_iff {setup : Body} {address : Address} {read : DirectRead} :
    (address, read) ∈ (setup.unresolve lost).directReads v owner ↔
      (address, read) ∈ setup.directReads v owner ∧ lost.keeps (address, read) = true := by
  have hKeeps : lost.keeps (address, read) = !(read.byIdentifier && lost.below address []) := by
    rw [Selection.below, List.append_nil]
    rfl
  rw [mem_directReads_iff, mem_directReads_iff, insideBuilder_unresolve, and_right_comm,
    at?_unresolve, hKeeps]
  apply and_congr_left'
  cases setup.at? address with
  | none => simp
  | some node =>
      simp only [Option.map_some, Option.some.injEq, exists_eq_left', Node.unresolve]
      rw [directRead?_unresolve, Option.filter_eq_some_iff]

/-- A setup body loses the reads of the identifiers that are no longer resolved. Both lists have
these reads, and both are in the order of the source. -/
theorem directReads_unresolve (setup : Body) :
    (setup.unresolve lost).directReads v owner =
      (setup.directReads v owner).filter lost.keeps := by
  let before (a b : Address × DirectRead) : Prop := a.1 < b.1
  have hOrder : ∀ b : Body, (b.directReads v owner).Pairwise before := fun b =>
    List.pairwise_map.mp (b.pairwise_outerFindings _)
  have : Std.Irrefl before := ⟨fun a => List.lt_irrefl a.1⟩
  have : Std.Antisymm before := ⟨fun a b hab hba => absurd hba (List.lt_asymm hab)⟩
  refine (hOrder _).eq_of_mem_iff ((hOrder setup).filter _) fun read => ?_
  rw [List.mem_filter]
  exact mem_directReads_unresolve_iff lost

end Phrase

variable (v : Vocabulary)

/-- The setup routine is found at its number, less what is selected of it. -/
theorem ClassDecl.placedMethod?_unresolve (c : ClassDecl) (name : String) :
    (c.unresolve lost).placedMethod? name =
      (c.placedMethod? name).map fun placed =>
        (placed.1, placed.2.unresolve (lost.inPart placed.1)) := by
  have hIndex : (c.unresolve lost).members.findIdx? (Member.isPlain name) =
      c.members.findIdx? (Member.isPlain name) :=
    findIdx?_mapIdx (fun i m => by cases m <;> rfl) c.members
  have hMember : ∀ j, (c.unresolve lost).members[j]?.bind Member.asMethod? =
      (c.members[j]?.bind Member.asMethod?).map (MethodDecl.unresolve (lost.inPart j)) := by
    intro j
    rw [unresolve, List.getElem?_mapIdx, Option.bind_map, Option.map_bind]
    exact Option.bind_congr fun m _ => by cases m <;> rfl
  rw [placedMethod?, hIndex, placedMethod?, Option.map_bind]
  refine Option.bind_congr fun j _ => ?_
  rw [Function.comp_apply, hMember, Option.map_map, Option.map_map]
  rfl

/-- A class loses the reads of the identifiers that are no longer resolved. -/
theorem ClassDecl.directReads_unresolve (c : ClassDecl) :
    (c.unresolve lost).directReads v = (c.directReads v).filter lost.keeps := by
  have hSuperclass : (c.unresolve lost).superclassName = c.superclassName := rfl
  have hName : (c.unresolve lost).name = c.name := rfl
  unfold directReads
  rw [hSuperclass, hName, placedMethod?_unresolve]
  split
  · cases c.placedMethod? v.setupMethod with
    | none => rfl
    | some placed =>
        obtain ⟨j, method⟩ := placed
        show ((method.body.unresolve ((lost.inPart j).inPart 1)).directReads v _).map _ =
          ((method.body.directReads v _).map _).filter lost.keeps
        rw [Phrase.directReads_unresolve, List.filter_map]
        rfl
  · rfl

theorem Declaration.directReads_unresolve (d : Declaration) :
    (d.unresolve lost).directReads v = (d.directReads v).filter lost.keeps := by
  cases d with
  | «class» c => exact c.directReads_unresolve lost v
  | function f => rfl
  | «variable» f => rfl

/-- A unit loses the reads of the identifiers that are no longer resolved. -/
theorem CompilationUnit.directReads_unresolve (u : CompilationUnit) :
    (u.unresolve lost).directReads v = (u.directReads v).filter lost.keeps := by
  show foundInEach _ (u.declarations.mapIdx _) = (foundInEach _ u.declarations).filter _
  rw [foundInEach, zipIdx_mapIdx, List.flatMap_map, foundInEach, List.filter_flatMap]
  refine List.flatMap_congr fun a _ => ?_
  rw [Declaration.directReads_unresolve, List.filter_map]
  rfl

/-! ### Runs -/

/-- The findings of a rule, each with the address of the identifier that it is for, if this has to
be resolved. -/
def Rule.trackedFindings (catalogs : Catalogs) (u : CompilationUnit) :
    Rule → List (Option Address × Diagnostic)
  | .reactiveProps => (u.directReads catalogs.vocabulary).map fun read =>
    (if read.2.byIdentifier then some read.1 else none, read.2.finding)
  | r => (r.findings catalogs u).map (none, ·)

/-- A finding remains if the identifier that it is for stays resolved. -/
def Selection.spares (tracked : Option Address × Diagnostic) : Bool :=
  !tracked.1.any lost

namespace Rule

variable (catalogs : Catalogs) (u : CompilationUnit)

/-- Without the addresses these are the findings of the rule. -/
theorem map_snd_trackedFindings (r : Rule) :
    (r.trackedFindings catalogs u).map Prod.snd = r.findings catalogs u := by
  cases r
  case reactiveProps =>
    rw [trackedFindings, List.map_map, u.findings_directReads]
    rfl
  all_goals exact (List.map_map ..).trans (List.map_id _)

/-- A rule loses the findings for the identifiers that are no longer resolved, and no others. -/
theorem trackedFindings_unresolve (r : Rule) :
    r.trackedFindings catalogs (u.unresolve lost) =
      (r.trackedFindings catalogs u).filter lost.spares := by
  have hOther : ∀ r : Rule, r ≠ .reactiveProps →
      (r.findings catalogs (u.unresolve lost)).map (Prod.mk (none : Option Address)) =
        ((r.findings catalogs u).map (none, ·)).filter lost.spares := by
    intro r h
    rw [findings_unresolve lost h, List.filter_eq_self.mpr]
    intro tracked hTracked
    obtain ⟨d, -, rfl⟩ := List.mem_map.mp hTracked
    rfl
  cases r
  case reactiveProps =>
    rw [trackedFindings, u.directReads_unresolve, trackedFindings, List.filter_map]
    congr 2
    funext ⟨address, read⟩
    obtain ⟨byIdentifier, d⟩ := read
    cases byIdentifier <;> rfl
  all_goals exact hOther _ nofun

variable {catalogs u}

/-- A finding is for an identifier iff the rule about props finds that this identifier reads one. -/
theorem mem_trackedFindings_iff {r : Rule} {address : Address} {d : Diagnostic} :
    (some address, d) ∈ r.trackedFindings catalogs u ↔
      r = .reactiveProps ∧ u.ReadsIdentifier catalogs.vocabulary address d := by
  cases r
  case reactiveProps =>
    rw [trackedFindings, List.mem_map, ← CompilationUnit.mem_directReads_iff, eq_self, true_and]
    constructor
    · rintro ⟨⟨_, byIdentifier, _⟩, hRead, he⟩
      cases byIdentifier <;> cases he
      exact hRead
    · exact fun hRead => ⟨_, hRead, rfl⟩
  all_goals simp [trackedFindings]

end Rule

namespace Linter

variable (l : Linter) (u : CompilationUnit)

/-- The findings that a run shows, each with the address of the identifier that it is for. -/
def trackedFindings : List (Option Address × Diagnostic) :=
  (l.enabled.flatMap (Rule.trackedFindings l.catalogs u)).filter fun tracked =>
    shows u.source tracked.2.rule tracked.2.span.start

/-- Without the addresses these are the findings that the run shows. -/
theorem map_snd_trackedFindings :
    (l.trackedFindings u).map Prod.snd = (l.lint u).diagnostics := by
  have hFindings : l.findings u =
      (l.enabled.flatMap (Rule.trackedFindings l.catalogs u)).map Prod.snd := by
    rw [List.map_flatMap]
    exact List.flatMap_congr fun r _ => (r.map_snd_trackedFindings l.catalogs u).symm
  rw [diagnostics_lint, hFindings, List.filter_map]
  rfl

/-- A run loses the findings for the identifiers that are no longer resolved, and no others. -/
theorem trackedFindings_unresolve :
    l.trackedFindings (u.unresolve lost) = (l.trackedFindings u).filter lost.spares := by
  have hFindings : l.enabled.flatMap (Rule.trackedFindings l.catalogs (u.unresolve lost)) =
      (l.enabled.flatMap (Rule.trackedFindings l.catalogs u)).filter lost.spares := by
    rw [List.filter_flatMap]
    exact List.flatMap_congr fun r _ => r.trackedFindings_unresolve lost l.catalogs u
  rw [trackedFindings, hFindings, trackedFindings, List.filter_comm]
  rfl

/-- No two findings are for one identifier. -/
theorem pairwise_trackedFindings (catalogs : Catalogs) :
    ((({ catalogs } : Linter).trackedFindings u).filterMap Prod.fst).Pairwise (· < ·) := by
  -- Only one rule gives addresses, and it gives them in the order of its reads.
  have hOther : ∀ r : Rule, r ≠ .reactiveProps →
      (r.trackedFindings catalogs u).filterMap Prod.fst = [] := by
    intro r h
    rw [List.filterMap_eq_nil_iff]
    rintro ⟨address, d⟩ hTracked
    cases address with
    | none => rfl
    | some address => exact absurd (Rule.mem_trackedFindings_iff.mp hTracked).1 h
  have hProps : ((Rule.reactiveProps.trackedFindings catalogs u).filterMap Prod.fst).Pairwise
      (· < ·) := by
    rw [Rule.trackedFindings, List.filterMap_map]
    refine (List.pairwise_map.mp (u.pairwise_directReads _)).filterMap _ ?_
    intro read read' hlt address hAddress address' hAddress'
    obtain ⟨-, h⟩ := Option.ite_none_right_eq_some.mp hAddress
    obtain ⟨-, h'⟩ := Option.ite_none_right_eq_some.mp hAddress'
    cases h
    cases h'
    exact hlt
  have hAll : (Rule.recommended.flatMap (Rule.trackedFindings catalogs u)).filterMap Prod.fst =
      (Rule.reactiveProps.trackedFindings catalogs u).filterMap Prod.fst := by
    rw [List.filterMap_flatMap]
    simp [Rule.recommended, Rule.essential, hOther]
  rw [← hAll] at hProps
  exact hProps.sublist (List.filter_sublist.filterMap _)

/-- A run on a unit in which some identifiers are no longer resolved shows what it showed before,
less the findings for these identifiers. -/
theorem lint_unresolve (catalogs : Catalogs) (u : CompilationUnit) :
    ∃ trace : List (Option Address × Diagnostic),
      (({ catalogs } : Linter).lint u).diagnostics = trace.map Prod.snd ∧
        (trace.filterMap Prod.fst).Pairwise (· < ·) ∧
        (∀ address d, (some address, d) ∈ trace ↔
          d ∈ (({ catalogs } : Linter).lint u).diagnostics ∧
            u.ReadsIdentifier catalogs.vocabulary address d) ∧
        ∀ lost : Selection, ({ catalogs } : Linter).lint (u.unresolve lost) =
          .ofDiagnostics u.path
            ((trace.filter fun tracked => !tracked.1.any lost).map Prod.snd) := by
  let l : Linter := { catalogs }
  refine ⟨l.trackedFindings u, (l.map_snd_trackedFindings u).symm,
    pairwise_trackedFindings u catalogs, fun address d => ?_, fun lost => ?_⟩
  · -- What a run shows has passed the comments of the source.
    have hShown : d ∈ (l.lint u).diagnostics → shows u.source d.rule d.span.start = true := by
      rw [diagnostics_lint]
      exact fun h => (List.mem_filter.mp h).2
    constructor
    · intro hTracked
      obtain ⟨r, -, hRule⟩ := List.mem_flatMap.mp (List.mem_filter.mp hTracked).1
      rw [← l.map_snd_trackedFindings u]
      exact ⟨List.mem_map.mpr ⟨_, hTracked, rfl⟩, (Rule.mem_trackedFindings_iff.mp hRule).2⟩
    · rintro ⟨hDiagnostic, hReads⟩
      have hRule : Rule.reactiveProps ∈ l.enabled := Rule.mem_recommended _
      exact List.mem_filter.mpr ⟨List.mem_flatMap.mpr ⟨_, hRule,
        Rule.mem_trackedFindings_iff.mpr ⟨rfl, hReads⟩⟩, hShown hDiagnostic⟩
  · have hResult : l.lint (u.unresolve lost) =
        .ofDiagnostics u.path (l.lint (u.unresolve lost)).diagnostics := rfl
    rw [hResult, ← l.map_snd_trackedFindings, l.trackedFindings_unresolve]
    rfl

/-- A prop is read twice. The read through `this` is found without any resolution. -/
example :
    let name (text : String) : Name := ⟨text, .zero⟩
    let count : Expr := .identifier ⟨60, 65⟩ "count"
      (some { kind := .field, owner := some "Counter" })
    let thisCount : Expr := .property ⟨68, 78⟩ (.this ⟨68, 72⟩) (name "count") false
    let unit : CompilationUnit :=
      { path := "lib/counter.dart"
        declarations := [.class
          { span := .zero
            name := name "Counter"
            superclass := some ⟨.zero, "CompositionWidget", [], false⟩
            isAbstract := false
            members := [.method
              { span := .zero
                name := name "setup"
                kind := .method
                keywords := []
                returnType := none
                params := .nil
                body := .body .zero .sync
                  (.exprBody (.binary ⟨60, 78⟩ "+" count thisCount)) }] }] }
    let spans (u : CompilationUnit) := (({} : Linter).lint u).diagnostics.map (·.span)
    unit.nodeAt? [0, 0, 1, 0, 0, 0] = some ⟨count⟩ ∧ spans unit = [⟨60, 65⟩, ⟨68, 78⟩] ∧
      spans (unit.unresolve fun address => address = [0, 0, 1, 0, 0, 0]) = [⟨68, 78⟩] :=
  ⟨rfl, by decide, by decide⟩

end Linter
end SetupLint
