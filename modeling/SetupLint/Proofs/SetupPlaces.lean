import SetupLint.Proofs.PlacedNodes
import SetupLint.Proofs.SetupPieces

/-! What happens in a setup body outside of its builder closure, by the place where it happens. The
rules about setup routines look at nothing else: what they find is found at an address, and they
find it in the order of the source. -/
namespace SetupLint

/-- A function at the top level is called: by a name that is resolved to one, or by a bare name that
is not resolved. -/
inductive CallsTopLevel : Phrase (.option .expr) → Option Resolution → Prop where
  | resolved {target : Phrase (.option .expr)} {resolution : Resolution}
      (function : resolution.kind = .function) : CallsTopLevel target (some resolution)
  | bare : CallsTopLevel .none none

/-- A call is at the top level iff it is taken for that. -/
theorem callsTopLevel_iff {call : Call} {target : Phrase (.option .expr)}
    (h : call.target = target.toOption) :
    CallsTopLevel target call.resolved ↔ call.isTopLevel = true := by
  obtain ⟨span, _, method, typeArgs, args, nullAware, resolved⟩ := call
  cases h
  cases resolved with
  | some resolution =>
      constructor
      · rintro ⟨function⟩
        exact decide_eq_true function
      · intro hFunction
        exact .resolved (of_decide_eq_true hFunction)
  | none =>
      cases target with
      | none => exact iff_of_true .bare rfl
      | some target => exact iff_of_false nofun nofun

namespace Phrase

/-- An address is inside the builder closure of a setup body. -/
def InsideBuilder (setup : Body) (address : Address) : Prop :=
  ∃ placed, setup.IsBuilder placed ∧ placed.address <+: address

/-- A conditional or a loop of a setup body is around an address. -/
def InsideConstruct (setup : Body) (address : Address) : Prop :=
  ∃ node ∈ setup.enclosing address, node.phrase.isConstruct

/-- Something happens at an address of a setup body, outside of its builder closure. -/
structure HappensAt (setup : Body) (address : Address) (occurrence : Occurrence) : Prop where
  occurs : ∃ node, setup.at? address = some node ∧ Occurs node.phrase occurrence
  outside : ¬ setup.InsideBuilder address

/-- What happens in a setup body outside of its builder closure. -/
def outerHappenings (setup : Body) : List Happening :=
  (setup.happenings setup.builderAddress? .outermost).filter fun h => !h.scope.insideBuilder

variable {setup : Body} {address : Address} {occurrence : Occurrence}

/-- The scope of what happens at an address of a setup body. -/
def setupScope (setup : Body) (address : Address) : Scope :=
  setup.scopeAt setup.builderAddress? .outermost address

/-- The list has what happens, each in the scope of its address. -/
theorem mem_outerHappenings_iff {h : Happening} :
    h ∈ setup.outerHappenings ↔
      setup.HappensAt h.address h.occurrence ∧ h.scope = setup.setupScope h.address := by
  rw [outerHappenings, List.mem_filter, mem_happenings_iff, Bool.not_eq_true', setupScope]
  constructor
  · rintro ⟨⟨⟨node, hNode, hOccurs⟩, hScope⟩, hOutside⟩
    refine ⟨⟨⟨node, hNode, hOccurs⟩, fun hInside => ?_⟩, hScope⟩
    rw [hScope, (insideBuilder_iff_isBuilder setup hNode hOccurs).mpr hInside] at hOutside
    cases hOutside
  · rintro ⟨⟨⟨node, hNode, hOccurs⟩, hOutside⟩, hScope⟩
    refine ⟨⟨⟨node, hNode, hOccurs⟩, hScope⟩, Bool.eq_false_iff.mpr fun hInside => ?_⟩
    rw [hScope] at hInside
    exact hOutside ((insideBuilder_iff_isBuilder setup hNode hOccurs).mp hInside)

theorem HappensAt.mem_outerHappenings (h : setup.HappensAt address occurrence) :
    ⟨address, occurrence, setup.setupScope address⟩ ∈ setup.outerHappenings :=
  mem_outerHappenings_iff.mpr ⟨h, rfl⟩

/-- What happens is listed in the order of the source. -/
theorem pairwise_outerHappenings (setup : Body) :
    (setup.outerHappenings.map Happening.address).Pairwise (· < ·) :=
  (setup.pairwise_happenings _ _).sublist (List.filter_sublist.map _)

/-- A scope is conditional iff a conditional or a loop is around it. -/
theorem isConditional_setupScope (h : (setup.at? address).isSome) :
    (setup.setupScope address).isConditional = true ↔ setup.InsideConstruct address := by
  have hDepth : (setup.setupScope address).depth =
      (setup.enclosing address).countP (·.phrase.isConstruct) :=
    (setup.depth_scopeAt _ _ _ h).trans (Nat.zero_add _)
  rw [Scope.isConditional, decide_eq_true_iff, hDepth, List.countP_pos_iff]
  rfl

variable {α : Type} {find? : Occurrence × Scope → Option α}

/-- What is found where something happens outside of the builder closure. -/
def outerFindings (setup : Body) (find? : Occurrence × Scope → Option α) : List (Address × α) :=
  foundAt Happening.address (fun h => find? (h.occurrence, h.scope)) setup.outerHappenings

theorem pairwise_outerFindings (setup : Body) (find? : Occurrence × Scope → Option α) :
    ((setup.outerFindings find?).map Prod.fst).Pairwise (· < ·) :=
  pairwise_foundAt setup.pairwise_outerHappenings

/-- Something is found at an address iff it is found in what happens there. -/
theorem mem_outerFindings_iff {a : α} :
    (address, a) ∈ setup.outerFindings find? ↔
      ∃ occurrence, setup.HappensAt address occurrence ∧
        find? (occurrence, setup.setupScope address) = some a := by
  rw [outerFindings, mem_foundAt_iff]
  constructor
  · rintro ⟨h, hMem, rfl, hFinding⟩
    obtain ⟨hHappens, hScope⟩ := mem_outerHappenings_iff.mp hMem
    rw [hScope] at hFinding
    exact ⟨h.occurrence, hHappens, hFinding⟩
  · rintro ⟨occurrence, hHappens, hFinding⟩
    exact ⟨_, hHappens.mem_outerHappenings, rfl, hFinding⟩

end Phrase

namespace Component

/-- The rules about setup look at what happens in the setup body outside of its builder closure. -/
theorem setupOccurrences_eq (c : Component) :
    c.setupOccurrences = c.body?.elim [] fun setup =>
      setup.outerHappenings.map fun h => (h.occurrence, h.scope) := by
  rw [setupOccurrences, occurrences_eq]
  cases c.body? with
  | none => rfl
  | some setup =>
      show setup.occurrences.filter _ = setup.outerHappenings.map _
      rw [← setup.told_builderAddress?, Phrase.told, List.filter_map]
      rfl

/-- What a rule finds in a setup routine it finds at the places of its body. -/
theorem filterMap_setupOccurrences {α : Type} (c : Component)
    (find? : Occurrence × Scope → Option α) :
    c.setupOccurrences.filterMap find? =
      c.body?.elim [] fun setup => (setup.outerFindings find?).map Prod.snd := by
  rw [setupOccurrences_eq]
  cases c.body? with
  | none => rfl
  | some setup =>
      simp only [Option.elim_some, Phrase.outerFindings, map_snd_foundAt, List.filterMap_map]
      rfl

end Component
end SetupLint
