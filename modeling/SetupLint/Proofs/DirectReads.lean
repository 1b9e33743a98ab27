import SetupLint.Linter
import SetupLint.Proofs.SetupPlaces

/-! Members of a component that are read directly in its setup routine, by the expressions that read
them. Two hooks of the walk find them, one for each way to write such a read; they are told of the
expressions in one order, that of the source. The names of members, of declarations, of parameters
and of labels belong to the phrases that have them and are no expressions, so they read nothing. -/
namespace SetupLint

/-- A reference is to a member of the instances of a class that holds a value, a field or a getter.
The class has to declare it itself. -/
structure Resolution.IsOwn (r : Resolution) (owner : String) : Prop where
  kind : r.kind = .field ∨ r.kind = .getter
  ofInstances : r.isStatic = false
  owned : r.owner = some owner

/-- An error about a member that is read directly. -/
def directReadError (v : Vocabulary) (name : String) (span : Span) : Diagnostic where
  rule := "ensure-reactive-props"
  severity := .error
  message := mention name ++ " is read directly in setup and will not update; use `" ++
    v.selfLookup ++ "." ++ name ++ "`"
  span := span
  help := some "Read the prop through `widget` inside a reactive computation"

/-- The expression at an address of a setup body, outside of the builder closure, reads a member of
the class `owner` directly, and this is the finding for it. The self lookup is the one member that
may be read. -/
inductive Phrase.ReadsDirectly (setup : Body) (v : Vocabulary) (owner : String)
    (address : Address) : Diagnostic → Prop where
  | property {span thisSpan : Span} {target : Expr} {name : Name} {nullAware : Bool}
      (access : setup.at? address = some ⟨.property span target name nullAware⟩)
      (outside : ¬ setup.InsideBuilder address) (bare : target.withoutParens = .this thisSpan)
      (other : name.text ≠ v.selfLookup) :
      ReadsDirectly setup v owner address (directReadError v name.text span)
  | identifier {span : Span} {name : String} {resolution : Resolution}
      (reference : setup.at? address = some ⟨.identifier span name (some resolution)⟩)
      (outside : ¬ setup.InsideBuilder address) (own : resolution.IsOwn owner)
      (other : name ≠ v.selfLookup) :
      ReadsDirectly setup v owner address (directReadError v name span)

/-- A member is the own one of a class iff the rule takes it for that. -/
theorem Resolution.isOwn_iff {r : Resolution} {owner : String} :
    r.IsOwn owner ↔ r.isInstanceMemberOf owner = true := by
  simp only [isInstanceMemberOf, isInstanceFieldOf, Bool.or_eq_true, Bool.and_eq_true,
    decide_eq_true_iff, Bool.not_eq_true']
  constructor
  · rintro ⟨kind | kind, ofInstances, owned⟩
    · exact Or.inl ⟨⟨kind, ofInstances⟩, owned⟩
    · exact Or.inr ⟨⟨kind, ofInstances⟩, owned⟩
  · rintro (⟨⟨kind, ofInstances⟩, owned⟩ | ⟨⟨kind, ofInstances⟩, owned⟩)
    · exact ⟨Or.inl kind, ofInstances, owned⟩
    · exact ⟨Or.inr kind, ofInstances, owned⟩

/-- An expression is `this` iff it is without its parentheses. -/
theorem Phrase.isThis_iff {e : Expr} :
    e.isThis = true ↔ ∃ span, e.withoutParens = .this span := by
  unfold isThis
  cases e.withoutParens <;> simp

/-! ### The hooks -/

namespace Rule

variable {v : Vocabulary} {owner : String} {d : Diagnostic}

/-- An access to a property is reported iff it goes through `this` and is not the self lookup. -/
theorem propertyRead?_eq_some_iff {span : Span} {target : Expr} {name : Name} :
    propertyRead? v span target name = some d ↔
      (∃ thisSpan, target.withoutParens = .this thisSpan) ∧ name.text ≠ v.selfLookup ∧
        directReadError v name.text span = d := by
  rw [propertyRead?, Option.ite_none_right_eq_some, Bool.and_eq_true, Phrase.isThis_iff, bne_iff_ne,
    and_assoc, Option.some.injEq]
  rfl

/-- An identifier is reported iff it stands for a member of the class itself and is not the self
lookup. -/
theorem identifierRead?_eq_some_iff {identifier : Identifier} :
    identifierRead? v owner identifier = some d ↔
      (∃ resolution, identifier.resolved = some resolution ∧ resolution.IsOwn owner) ∧
        identifier.name ≠ v.selfLookup ∧
          directReadError v identifier.name identifier.span = d := by
  have hOwn : (identifier.resolved.any fun r => r.isInstanceMemberOf owner) = true ↔
      ∃ resolution, identifier.resolved = some resolution ∧ resolution.IsOwn owner := by
    simp only [Option.any_eq_true, Resolution.isOwn_iff]
  rw [identifierRead?, Option.ite_none_right_eq_some, Bool.and_eq_true, bne_iff_ne, hOwn,
    and_comm (a := _ ≠ _), and_assoc, Option.some.injEq]
  rfl

/-- What the rule finds where something happens. -/
def directOccurrence? (v : Vocabulary) (owner : String) : Occurrence × Scope → Option Diagnostic
  | (.property span target name, _) => propertyRead? v span target name
  | (.identifier identifier, _) => identifierRead? v owner identifier
  | _ => none

end Rule

/-! ### The findings -/

/-- What the rule finds in a setup body are the direct reads in it. -/
theorem Phrase.mem_directFindings_iff {setup : Body} {v : Vocabulary} {owner : String}
    {address : Address} {d : Diagnostic} :
    (address, d) ∈ setup.outerFindings (Rule.directOccurrence? v owner) ↔
      setup.ReadsDirectly v owner address d := by
  rw [mem_outerFindings_iff]
  constructor
  · rintro ⟨occurrence, ⟨⟨⟨p⟩, hNode, hOccurs⟩, outside⟩, hFinding⟩
    cases hOccurs <;> try cases hFinding
    case property =>
      obtain ⟨⟨thisSpan, bare⟩, other, rfl⟩ := Rule.propertyRead?_eq_some_iff.mp hFinding
      exact .property hNode outside bare other
    case identifier =>
      obtain ⟨⟨resolution, rfl, own⟩, other, rfl⟩ := Rule.identifierRead?_eq_some_iff.mp hFinding
      exact .identifier hNode outside own other
  · rintro (⟨access, outside, bare, other⟩ | ⟨reference, outside, own, other⟩)
    · exact ⟨_, ⟨⟨_, access, .property⟩, outside⟩,
        Rule.propertyRead?_eq_some_iff.mpr ⟨⟨_, bare⟩, other, rfl⟩⟩
    · exact ⟨_, ⟨⟨_, reference, .identifier⟩, outside⟩,
        Rule.identifierRead?_eq_some_iff.mpr ⟨⟨_, rfl, own⟩, other, rfl⟩⟩

/-- The findings of the rule are those of its two hooks, as they are told of the setup body. -/
theorem Component.checkProps_eq (catalogs : Catalogs) (c : Component) :
    Rule.checkProps catalogs c =
      c.setupOccurrences.filterMap (Rule.directOccurrence? catalogs.vocabulary c.name) := by
  refine List.filterMap_congr fun o _ => ?_
  obtain ⟨occurrence, scope⟩ := o
  cases occurrence <;> rfl

/-- The findings about members that are read directly are, in the order of the source, those for
the expressions of the setup body that read one, each of them once. An address is less than another
one if it comes first or leads to it. -/
theorem Component.checkComponent_reactiveProps (catalogs : Catalogs) (c : Component) :
    ∃ trace : List (Address × Diagnostic),
      Rule.reactiveProps.checkComponent catalogs c = trace.map Prod.snd ∧
        (trace.map Prod.fst).Pairwise (· < ·) ∧
        ∀ address d, (address, d) ∈ trace ↔
          ∃ setup, c.body? = some setup ∧
            setup.ReadsDirectly catalogs.vocabulary c.name address d := by
  have hCheck : Rule.reactiveProps.checkComponent catalogs c =
      c.body?.elim [] fun setup => (setup.outerFindings
        (Rule.directOccurrence? catalogs.vocabulary c.name)).map Prod.snd :=
    (c.checkProps_eq catalogs).trans (c.filterMap_setupOccurrences _)
  rw [hCheck]
  cases c.body? with
  | none => exact ⟨[], rfl, List.Pairwise.nil, by simp⟩
  | some setup =>
      refine ⟨_, rfl, setup.pairwise_outerFindings _, fun address d => ?_⟩
      rw [Phrase.mem_directFindings_iff]
      simp only [Option.some.injEq, exists_eq_left']

end SetupLint
