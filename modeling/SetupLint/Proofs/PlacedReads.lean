import SetupLint.Proofs.ConditionalCalls
import SetupLint.Proofs.DirectReads

/-! Direct reads of props in a unit, by the expressions that read them. The address of an expression
leads through the number of its class, that of the setup routine among the members and that of the
body in the routine. Only identifiers have to be resolved to be found, so it is kept which reads are
theirs. -/
namespace SetupLint

/-- The phrase at an address in a declaration. In a class an address starts with the number of a
member and that of a root of the member. -/
def Declaration.nodeAt? : Declaration → Address → Option Node
  | .class c, j :: k :: address =>
    (c.members[j]?.bind fun m => m.roots[k]?).bind fun root => root.phrase.at? address
  | .class _, _ => none
  | .function f, address => f.at? address
  | .variable v, address => v.at? address

/-- The phrase at an address in a unit. An address starts with the number of a declaration. -/
def CompilationUnit.nodeAt? (u : CompilationUnit) : Address → Option Node
  | [] => none
  | i :: address => u.declarations[i]?.bind fun d => d.nodeAt? address

/-- The declaration with number `i` is a component by the name of `owner`, and its member with
number `j`, the first one that may be it, is the setup routine with a body. -/
inductive CompilationUnit.SetupAt (u : CompilationUnit) (v : Vocabulary) (i j : Nat) :
    String → Body → Prop where
  | intro {decl : ClassDecl} {type : TypeRef} {method : MethodDecl}
      (component : u.declarations[i]? = some (.class decl))
      (superclass : decl.superclass = some type) (host : type.simpleName = v.hostBase)
      (member : decl.members[j]? = some (.method method)) (setup : method.IsPlain v.setupMethod)
      (first : ∀ k < j, ∀ other, decl.members[k]? = some (.method other) →
        ¬ other.IsPlain v.setupMethod) :
      SetupAt u v i j decl.name.text method.body

/-- The identifier at an address of a unit reads a prop directly, and this is the finding for it.
The body is the root with number 1 of the setup routine. -/
inductive CompilationUnit.ReadsIdentifier (u : CompilationUnit) (v : Vocabulary) :
    Address → Diagnostic → Prop where
  | intro {i j : Nat} {owner : String} {setup : Body} {address : Address} {span : Span}
      {name : String} {resolution : Resolution} (routine : u.SetupAt v i j owner setup)
      (reference : u.nodeAt? (i :: j :: 1 :: address) =
        some ⟨.identifier span name (some resolution)⟩)
      (outside : ¬ setup.InsideBuilder address) (own : resolution.IsOwn owner)
      (other : name ≠ v.selfLookup) :
      ReadsIdentifier u v (i :: j :: 1 :: address) (directReadError v name span)

/-! ### Reads in a setup body -/

/-- A finding about a prop that is read directly. -/
structure DirectRead where
  byIdentifier : Bool
  finding : Diagnostic

/-- What an occurrence reads. -/
def Rule.directRead? (v : Vocabulary) (owner : String) : Occurrence → Option DirectRead
  | .property span target name => (propertyRead? v span target name).map (⟨false, ·⟩)
  | .identifier i => (identifierRead? v owner i).map (⟨true, ·⟩)
  | _ => none

namespace Phrase

/-- The reads in a setup body outside of its builder closure. -/
def directReads (v : Vocabulary) (owner : String) (setup : Body) : List (Address × DirectRead) :=
  setup.outerFindings fun entry => Rule.directRead? v owner entry.1

variable {v : Vocabulary} {owner : String}

/-- What is inside the builder closure has an address that starts with that of the closure. -/
theorem insideBuilder_iff {setup : Body} {address : Address} :
    setup.InsideBuilder address ↔ ∃ way, setup.builderAddress? = some way ∧ way <+: address := by
  simp only [InsideBuilder, ← placedBuilder?_eq_some_iff, builderAddress?, Option.map_eq_some_iff]
  constructor
  · rintro ⟨placed, hBuilder, hInside⟩
    exact ⟨_, ⟨placed, hBuilder, rfl⟩, hInside⟩
  · rintro ⟨_, ⟨placed, hBuilder, rfl⟩, hInside⟩
    exact ⟨placed, hBuilder, hInside⟩

/-- A setup body has a read where something happens outside of the builder closure that reads. -/
theorem mem_directReads_iff {setup : Body} {address : Address} {read : DirectRead} :
    (address, read) ∈ setup.directReads v owner ↔
      (∃ node, setup.at? address = some node ∧
        node.phrase.occurrence?.bind (Rule.directRead? v owner) = some read) ∧
      ¬ setup.InsideBuilder address := by
  rw [directReads, mem_outerFindings_iff]
  constructor
  · rintro ⟨occurrence, ⟨⟨node, hNode, hOccurs⟩, outside⟩, hRead⟩
    exact ⟨⟨node, hNode, Option.bind_eq_some_iff.mpr ⟨_, occurs_iff.mp hOccurs, hRead⟩⟩, outside⟩
  · rintro ⟨⟨node, hNode, hFound⟩, outside⟩
    obtain ⟨occurrence, hOccurs, hRead⟩ := Option.bind_eq_some_iff.mp hFound
    exact ⟨occurrence, ⟨⟨node, hNode, occurs_iff.mpr hOccurs⟩, outside⟩, hRead⟩

/-- An identifier is found to read a member if it is resolved to one. -/
theorem mem_directReads_identifier_iff {setup : Body} {address : Address} {d : Diagnostic} :
    (address, ⟨true, d⟩) ∈ setup.directReads v owner ↔
      ∃ span name resolution,
        setup.at? address = some ⟨.identifier span name (some resolution)⟩ ∧
          ¬ setup.InsideBuilder address ∧ resolution.IsOwn owner ∧ name ≠ v.selfLookup ∧
          directReadError v name span = d := by
  rw [mem_directReads_iff]
  constructor
  · rintro ⟨⟨node, hNode, hFound⟩, outside⟩
    obtain ⟨occurrence, hOccurs, hRead⟩ := Option.bind_eq_some_iff.mp hFound
    obtain ⟨p⟩ := node
    -- Reads through `this` are found at accesses, which do not count as identifiers.
    cases occurs_iff.mpr hOccurs with
    | identifier =>
        obtain ⟨_, hRead, he⟩ := Option.map_eq_some_iff.mp hRead
        cases he
        obtain ⟨⟨resolution, rfl, own⟩, other, hFinding⟩ :=
          Rule.identifierRead?_eq_some_iff.mp hRead
        exact ⟨_, _, resolution, hNode, outside, own, other, hFinding⟩
    | property =>
        obtain ⟨_, _, he⟩ := Option.map_eq_some_iff.mp hRead
        cases he
    | _ => cases hRead
  · rintro ⟨span, name, resolution, hNode, outside, own, other, rfl⟩
    have hRead : Rule.identifierRead? v owner ⟨span, name, some resolution⟩ =
        some (directReadError v name span) :=
      Rule.identifierRead?_eq_some_iff.mpr ⟨⟨resolution, rfl, own⟩, other, rfl⟩
    exact ⟨⟨_, hNode, congrArg (Option.map (DirectRead.mk true)) hRead⟩, outside⟩

/-- The findings of the rule about props are those for the reads. -/
theorem map_finding_directReads (setup : Body) :
    ((setup.directReads v owner).map fun read => read.2.finding) =
      (setup.outerFindings (Rule.directOccurrence? v owner)).map Prod.snd := by
  have hFinding : ∀ entry : Occurrence × Scope,
      (Rule.directRead? v owner entry.1).map DirectRead.finding =
        Rule.directOccurrence? v owner entry := by
    rintro ⟨occurrence, scope⟩
    cases occurrence with
    | property span target name =>
        show ((Rule.propertyRead? v span target name).map _).map _ = _
        rw [Option.map_map]
        exact Option.map_id'
    | identifier i =>
        show ((Rule.identifierRead? v owner i).map _).map _ = _
        rw [Option.map_map]
        exact Option.map_id'
    | _ => rfl
  show (setup.directReads v owner).map (DirectRead.finding ∘ Prod.snd) = _
  rw [← List.map_map, directReads, outerFindings, map_snd_foundAt, List.map_filterMap,
    outerFindings, map_snd_foundAt]
  exact List.filterMap_congr fun h _ => hFinding (h.occurrence, h.scope)

end Phrase

/-! ### Setup routines -/

/-- Whether a member is a plain method of the instances with a name. -/
def Member.isPlain (name : String) (m : Member) : Bool :=
  m.asMethod?.any fun m => !m.isStatic && m.kind = .method && m.name.text = name

/-- The first plain method of the instances with a name, and its number among the members. -/
def ClassDecl.placedMethod? (c : ClassDecl) (name : String) : Option (Nat × MethodDecl) :=
  (c.members.findIdx? (Member.isPlain name)).bind fun j =>
    (c.members[j]?.bind Member.asMethod?).map (j, ·)

theorem Member.asMethod?_eq_some_iff {m : Member} {method : MethodDecl} :
    m.asMethod? = some method ↔ m = .method method := by
  cases m <;> simp [asMethod?]

/-- A plain member is a plain method. -/
theorem Member.isPlain_iff {name : String} {m : Member} :
    m.isPlain name = true ↔ ∃ method, m = .method method ∧ method.IsPlain name := by
  simp only [isPlain, Option.any_eq_true, asMethod?_eq_some_iff, MethodDecl.isPlain_iff]

namespace ClassDecl

/-- Without its number this is the method that the linter looks at. -/
theorem map_snd_placedMethod? (c : ClassDecl) (name : String) :
    (c.placedMethod? name).map Prod.snd = c.instanceMethod? name := by
  rw [instanceMethod?, methods, List.find?_filterMap, List.find?_eq_bind_findIdx?_getElem?,
    placedMethod?, Option.map_bind, Option.bind_assoc]
  refine Option.bind_congr fun j _ => ?_
  rw [Function.comp_apply, Option.map_map]
  exact Option.map_id'

/-- The placed method is the first plain one of its name. -/
theorem placedMethod?_eq_some_iff {c : ClassDecl} {name : String} {j : Nat}
    {method : MethodDecl} :
    c.placedMethod? name = some (j, method) ↔
      c.members[j]? = some (.method method) ∧ method.IsPlain name ∧
        ∀ k < j, ∀ other, c.members[k]? = some (.method other) → ¬ other.IsPlain name := by
  constructor
  · intro h
    obtain ⟨i, hIndex, h⟩ := Option.bind_eq_some_iff.mp h
    obtain ⟨_, h, hPlaced⟩ := Option.map_eq_some_iff.mp h
    obtain ⟨m, hMember, hMethod⟩ := Option.bind_eq_some_iff.mp h
    cases hPlaced
    cases Member.asMethod?_eq_some_iff.mp hMethod
    obtain ⟨hj, hPlain, hFirst⟩ := List.findIdx?_eq_some_iff_getElem.mp hIndex
    rw [(List.getElem?_eq_some_iff.mp hMember).2] at hPlain
    obtain ⟨_, hSame, setup⟩ := Member.isPlain_iff.mp hPlain
    cases hSame
    refine ⟨hMember, setup, fun k hk other hOther plain => hFirst k hk ?_⟩
    rw [(List.getElem?_eq_some_iff.mp hOther).2]
    exact Member.isPlain_iff.mpr ⟨other, rfl, plain⟩
  · rintro ⟨hMember, setup, hFirst⟩
    obtain ⟨hj, hMethod⟩ := List.getElem?_eq_some_iff.mp hMember
    have hIndex : c.members.findIdx? (Member.isPlain name) = some j := by
      refine List.findIdx?_eq_some_iff_getElem.mpr ⟨hj, ?_, fun k hk hPlain => ?_⟩
      · rw [hMethod]
        exact Member.isPlain_iff.mpr ⟨method, rfl, setup⟩
      · obtain ⟨other, hOther, plain⟩ := Member.isPlain_iff.mp hPlain
        exact hFirst k hk other (List.getElem?_eq_some_iff.mpr ⟨Nat.lt_trans hk hj, hOther⟩) plain
    rw [placedMethod?, hIndex, Option.bind_some, hMember]
    rfl

end ClassDecl

/-! ### Reads in a unit -/

/-- The reads in the setup routine of a class, if it is a component. An address starts with the
number of the routine among the members. -/
def ClassDecl.directReads (v : Vocabulary) (c : ClassDecl) : List (Address × DirectRead) :=
  if c.superclassName = some v.hostBase then
    (c.placedMethod? v.setupMethod).elim [] fun placed =>
      (placed.2.body.directReads v c.name.text).map fun read =>
        (placed.1 :: 1 :: read.1, read.2)
  else []

def Declaration.directReads (v : Vocabulary) (d : Declaration) : List (Address × DirectRead) :=
  d.asClass?.elim [] (ClassDecl.directReads v)

/-- The reads in a unit. An address starts with the number of the declaration. -/
def CompilationUnit.directReads (v : Vocabulary) (u : CompilationUnit) :
    List (Address × DirectRead) :=
  foundInEach (Declaration.directReads v) u.declarations

/-- An address in a setup body is one in the unit, behind the numbers that lead to the body. -/
theorem CompilationUnit.SetupAt.nodeAt? {u : CompilationUnit} {v : Vocabulary} {i j : Nat}
    {owner : String} {setup : Body} (h : u.SetupAt v i j owner setup) (address : Address) :
    u.nodeAt? (i :: j :: 1 :: address) = setup.at? address := by
  obtain ⟨component, -, -, member, -, -⟩ := h
  simp [CompilationUnit.nodeAt?, Declaration.nodeAt?, component, member, Member.roots]

/-- The reads of a declaration are those in the setup routine of the component that it is. -/
theorem Declaration.mem_directReads_iff {v : Vocabulary} {d : Declaration} {address : Address}
    {read : DirectRead} :
    (address, read) ∈ d.directReads v ↔
      ∃ c j method inner, d = .class c ∧ c.superclassName = some v.hostBase ∧
        c.placedMethod? v.setupMethod = some (j, method) ∧ address = j :: 1 :: inner ∧
          (inner, read) ∈ method.body.directReads v c.name.text := by
  constructor
  · intro h
    cases d with
    | «class» c =>
        change (address, read) ∈ c.directReads v at h
        unfold ClassDecl.directReads at h
        split at h
        case isTrue hHost =>
          cases hMethod : c.placedMethod? v.setupMethod with
          | none =>
              rw [hMethod] at h
              cases h
          | some placed =>
              rw [hMethod] at h
              obtain ⟨⟨inner, _⟩, hRead, he⟩ := List.mem_map.mp h
              cases he
              exact ⟨c, _, _, inner, rfl, hHost, hMethod, rfl, hRead⟩
        case isFalse => cases h
    | function f => cases h
    | «variable» f => cases h
  · rintro ⟨c, j, method, inner, rfl, hHost, hMethod, rfl, hRead⟩
    show _ ∈ c.directReads v
    rw [ClassDecl.directReads, if_pos hHost, hMethod]
    exact List.mem_map.mpr ⟨_, hRead, rfl⟩

/-- The rule about props looks at the components. -/
theorem Declaration.map_finding_directReads (catalogs : Catalogs) (d : Declaration) :
    ((d.directReads catalogs.vocabulary).map fun read => read.2.finding) =
      (d.asClass?.bind (Component.ofClass? catalogs.vocabulary)).elim []
        (Rule.checkProps catalogs) := by
  cases d with
  | «class» c =>
      show ((c.directReads catalogs.vocabulary).map fun read => read.2.finding) =
        (Component.ofClass? catalogs.vocabulary c).elim [] (Rule.checkProps catalogs)
      unfold ClassDecl.directReads Component.ofClass?
      split
      · rw [Option.elim_some, Component.checkProps_eq, Component.filterMap_setupOccurrences,
          Component.body?, ← ClassDecl.map_snd_placedMethod?]
        cases c.placedMethod? catalogs.vocabulary.setupMethod with
        | none => rfl
        | some placed =>
            show (List.map _ _).map _ = (placed.2.body.outerFindings _).map Prod.snd
            rw [← Phrase.map_finding_directReads, List.map_map]
            rfl
      · rfl
  | function f => rfl
  | «variable» f => rfl

/-- The reads of a declaration are in the order of the source. -/
theorem Declaration.pairwise_directReads (v : Vocabulary) (d : Declaration) :
    ((d.directReads v).map Prod.fst).Pairwise (· < ·) := by
  cases d with
  | «class» c =>
      show ((c.directReads v).map Prod.fst).Pairwise (· < ·)
      unfold ClassDecl.directReads
      split
      · cases c.placedMethod? v.setupMethod with
        | none => exact List.Pairwise.nil
        | some placed =>
            have hInner := placed.2.body.pairwise_outerFindings fun entry =>
              Rule.directRead? v c.name.text entry.1
            rw [Option.elim_some, List.map_map, List.pairwise_map]
            exact (List.pairwise_map.mp hInner).imp fun h => List.Lex.cons (List.Lex.cons h)
      · exact List.Pairwise.nil
  | function f => exact List.Pairwise.nil
  | «variable» f => exact List.Pairwise.nil

namespace CompilationUnit

/-- Reads come in the order of the source. -/
theorem pairwise_directReads (v : Vocabulary) (u : CompilationUnit) :
    ((u.directReads v).map Prod.fst).Pairwise (· < ·) :=
  pairwise_foundInEach fun d _ => d.pairwise_directReads v

/-- The listed reads through identifiers are those of the unit. -/
theorem mem_directReads_iff {v : Vocabulary} {u : CompilationUnit} {address : Address}
    {d : Diagnostic} :
    (address, ⟨true, d⟩) ∈ u.directReads v ↔ u.ReadsIdentifier v address d := by
  rw [directReads, mem_foundInEach_iff]
  constructor
  · rintro ⟨i, decl, inner, hDecl, rfl, hFound⟩
    obtain ⟨c, j, method, inner, rfl, hHost, hMethod, rfl, hRead⟩ :=
      Declaration.mem_directReads_iff.mp hFound
    obtain ⟨type, superclass, host⟩ := Option.map_eq_some_iff.mp hHost
    obtain ⟨member, setup, first⟩ := ClassDecl.placedMethod?_eq_some_iff.mp hMethod
    obtain ⟨span, name, resolution, reference, outside, own, other, rfl⟩ :=
      Phrase.mem_directReads_identifier_iff.mp hRead
    have routine : u.SetupAt v i j c.name.text method.body :=
      .intro hDecl superclass host member setup first
    exact .intro routine ((routine.nodeAt? inner).trans reference) outside own other
  · rintro ⟨routine, reference, outside, own, other⟩
    rw [routine.nodeAt?] at reference
    obtain ⟨component, superclass, host, member, setup, first⟩ := routine
    refine ⟨_, _, _, component, rfl, Declaration.mem_directReads_iff.mpr ?_⟩
    exact ⟨_, _, _, _, rfl, Option.map_eq_some_iff.mpr ⟨_, superclass, host⟩,
      ClassDecl.placedMethod?_eq_some_iff.mpr ⟨member, setup, first⟩, rfl,
      Phrase.mem_directReads_identifier_iff.mpr
        ⟨_, _, _, reference, outside, own, other, rfl⟩⟩

/-- The findings of the rule about props are the reads. -/
theorem findings_directReads (catalogs : Catalogs) (u : CompilationUnit) :
    Rule.reactiveProps.findings catalogs u =
      (u.directReads catalogs.vocabulary).map fun read => read.2.finding := by
  have hUnit : Rule.reactiveProps.checkUnit catalogs u = [] := rfl
  show _ = (foundInEach _ u.declarations).map (DirectRead.finding ∘ Prod.snd)
  rw [Rule.findings, hUnit, List.append_nil, flatMap_components, ← List.map_map,
    map_snd_foundInEach, List.map_flatMap]
  refine List.flatMap_congr fun d _ => ?_
  rw [List.map_map]
  exact (d.map_finding_directReads catalogs).symm

end CompilationUnit
end SetupLint
