import SetupLint.Proofs.BuilderPlace
import SetupLint.Proofs.SetupWalk

/-! The hooks of a setup walk in lexical terms: they are called once for each call, property
access, identifier and declaration of local variables in the body, in the order of the source.
The depth of a hook counts the conditionals and loops around its phrase, and a hook is inside
the builder closure iff its phrase stands in the only closure that the body returns. -/
namespace SetupLint

/-- The happenings of a setup body in the order of the source, each in the scope that the
phrases around it make. -/
structure Phrase.HookTrace (setup : Body) (trace : List Happening) : Prop where
  /-- An address is less than another one if it comes first or leads to it. -/
  ordered : (trace.map Happening.address).Pairwise (· < ·)
  complete : ∀ address, address ∈ trace.map Happening.address ↔
    ∃ node occurrence, setup.at? address = some node ∧ Occurs node.phrase occurrence
  faithful : ∀ h ∈ trace, ∃ node, setup.at? h.address = some node ∧ Occurs node.phrase h.occurrence
  depth : ∀ h ∈ trace, h.scope.depth = (setup.enclosing h.address).countP (·.phrase.isConstruct)
  builder : ∀ h ∈ trace, h.scope.insideBuilder = true ↔
    ∃ placed, setup.IsBuilder placed ∧ placed.address <+: h.address

namespace Phrase

/-- An address is inside the builder closure iff the address of the closure leads to it. -/
theorem insideBuilder_iff_isBuilder (setup : Body) {address : Address} {node : Node}
    {occurrence : Occurrence} (hNode : setup.at? address = some node)
    (hOccurs : Occurs node.phrase occurrence) :
    (setup.scopeAt setup.builderAddress? .outermost address).insideBuilder = true ↔
      ∃ placed, setup.IsBuilder placed ∧ placed.address <+: address := by
  rw [insideBuilder_scopeAt setup _ _ address (Option.isSome_iff_exists.mpr ⟨node, hNode⟩)]
  constructor
  · rintro (hOutermost | ⟨builder, closure, i, rest, hWay, rfl, -⟩)
    · cases hOutermost
    · obtain ⟨placed, hPlaced, rfl⟩ := Option.map_eq_some_iff.mp hWay
      exact ⟨placed, placedBuilder?_eq_some_iff.mp hPlaced, List.prefix_append ..⟩
  · rintro ⟨placed, hBuilder, rest, rfl⟩
    have hClosure := hBuilder.1.at?
    have hWay : setup.builderAddress? = some placed.address :=
      Option.map_eq_some_iff.mpr ⟨placed, placedBuilder?_eq_some_iff.mpr hBuilder, rfl⟩
    cases rest with
    | nil =>
        -- nothing happens at the closure itself
        rw [List.append_nil, hClosure] at hNode
        cases hNode
        cases hOccurs
    | cons i rest =>
        exact Or.inr ⟨placed.address, placed.closure, i, rest, hWay, rfl, hClosure⟩

/-- The lexical account of a setup body has the hooks of its walk. -/
theorem hookTrace_happenings (setup : Body) :
    setup.HookTrace (setup.happenings setup.builderAddress? .outermost) where
  ordered := pairwise_happenings ..
  complete := by
    intro address
    constructor
    · intro h
      obtain ⟨happening, hMem, rfl⟩ := List.mem_map.mp h
      obtain ⟨⟨node, hNode, hOccurs⟩, -⟩ := mem_happenings_iff.mp hMem
      exact ⟨node, happening.occurrence, hNode, hOccurs⟩
    · rintro ⟨node, occurrence, hNode, hOccurs⟩
      let scope := setup.scopeAt setup.builderAddress? .outermost address
      exact List.mem_map.mpr ⟨⟨address, occurrence, scope⟩,
        mem_happenings_iff.mpr ⟨⟨node, hNode, hOccurs⟩, rfl⟩, rfl⟩
  faithful := fun h hMem => (mem_happenings_iff.mp hMem).1
  depth := by
    intro h hMem
    obtain ⟨⟨node, hNode, -⟩, hScope⟩ := mem_happenings_iff.mp hMem
    rw [hScope, depth_scopeAt _ _ _ _ (Option.isSome_iff_exists.mpr ⟨node, hNode⟩)]
    exact Nat.zero_add _
  builder := by
    intro h hMem
    obtain ⟨⟨node, hNode, hOccurs⟩, hScope⟩ := mem_happenings_iff.mp hMem
    rw [hScope]
    exact insideBuilder_iff_isBuilder setup hNode hOccurs

/-- A visitor of a setup body hears what happens in it. -/
theorem walkSetup_eq_hear {σ : Type} (visitor : SetupVisitor σ) (setup : Body) (state : σ) :
    setup.walkSetup visitor state =
      visitor.hear state (setup.happenings setup.builderAddress? .outermost) := by
  unfold walkSetup
  rw [setupWalk_happenings visitor setup _ _ fun _ => rfl]

end Phrase

/-- Every visitor of a component is called for one and the same trace, and this is the lexical
account of its setup body. The builder closure that is looked up is the one in that account. -/
theorem Component.walkSetup_hooks (c : Component) :
    ∃ trace : List Happening,
      (∀ {σ : Type} (visitor : SetupVisitor σ) (state : σ),
        c.walkSetup visitor state =
          trace.foldl (fun state h => visitor h.occurrence h.scope state) state) ∧
      match c.body? with
      | none => trace = []
      | some setup => setup.HookTrace trace ∧
          ∀ placed, setup.placedBuilder? = some placed ↔ setup.IsBuilder placed := by
  unfold walkSetup
  cases c.body? with
  | none => exact ⟨[], fun _ _ => rfl, rfl⟩
  | some setup =>
      exact ⟨_, fun visitor state => setup.walkSetup_eq_hear visitor state,
        setup.hookTrace_happenings, fun _ => Phrase.placedBuilder?_eq_some_iff⟩

end SetupLint
