import SetupLint.Proofs.Part
import SetupLint.Setup

/-! What the walk through a setup body tells its visitor. The walk keeps a stack of frames, a
counter and a flag; a lexical account needs none of them. It lists the addresses at which
something happens, and the scope at an address comes from the phrases around it alone.
The walk tells its visitor exactly this list, and leaves its scope as it was. -/
namespace SetupLint

/-- What a phrase stands for in the course of a setup routine. -/
inductive Occurs : {c : Category} → Phrase c → Occurrence → Prop where
  | call {span : Span} {target : Phrase (.option .expr)} {method : Name}
      {typeArgs : List TypeRef} {args : Phrase (.list .argument)} {nullAware : Bool}
      {resolved : Option Resolution} :
      Occurs (.call span target method typeArgs args nullAware resolved)
        (.call ⟨span, target.toOption, method, typeArgs, args.toList, nullAware, resolved⟩)
  | property {span : Span} {target : Expr} {name : Name} {nullAware : Bool} :
      Occurs (.property span target name nullAware) (.property span target name)
  | identifier {span : Span} {name : String} {resolved : Option Resolution} :
      Occurs (.identifier span name resolved) (.identifier ⟨span, name, resolved⟩)
  | locals {span : Span} {keywords : List Keyword} {type : Option TypeRef}
      {declared : Phrase (.list .declarator)} :
      Occurs (.variableDecl span keywords type declared)
        (.locals (.variableDecl span keywords type declared))

/-- Something that happens at an address, in a scope. -/
structure Happening where
  address : Address
  occurrence : Occurrence
  scope : Scope

/-- A happening as it is placed in a larger phrase. -/
def Happening.under (i : Nat) (h : Happening) : Happening := { h with address := i :: h.address }

/-- A visitor that is told some happenings. -/
def SetupVisitor.hear {σ : Type} (visitor : SetupVisitor σ) (state : σ)
    (happenings : List Happening) : σ :=
  happenings.foldl (fun state h => visitor h.occurrence h.scope state) state

/-- The way to the builder closure from inside of it or from beside it. -/
@[simp]
theorem Address.onward?_none (i : Nat) : onward? i none = none := rfl

@[simp]
theorem Address.onward?_nil (i : Nat) : onward? i (some []) = none := rfl

@[simp]
theorem Address.onward?_cons_self (i : Nat) (address : Address) :
    onward? i (some (i :: address)) = some address := by
  simp [onward?]

namespace Scope

/-- Leaving undoes entering, as the builder closure is entered from outside of it only. -/
theorem exit_enter (s : Scope) (frame : Frame)
    (h : frame = .builder → s.insideBuilder = false) : (s.enter frame).exit frame = s := by
  cases frame with
  | conditional => rfl
  | loop => rfl
  | builder =>
      obtain ⟨frames, depth, inside⟩ := s
      have hInside : inside = false := h rfl
      rw [hInside]
      rfl

end Scope

namespace Phrase

variable {c : Category}

/-- Whether a phrase is a conditional or a loop. -/
def isConstruct : {c : Category} → Phrase c → Bool
  | _, .ifStmt .. => true
  | _, .switchStmt .. => true
  | _, .forStmt .. => true
  | _, .forInStmt .. => true
  | _, .whileStmt .. => true
  | _, .doWhileStmt .. => true
  | _, .conditional .. => true
  | _, .switchExpr .. => true
  | _, _ => false

/-- The scope of the parts of a phrase. -/
def innerScope (p : Phrase c) (way : Option Address) (scope : Scope) : Scope :=
  (p.frameAt? way).elim scope scope.enter

/-- All that happens in a phrase, in the order of the source. -/
def happenings (p : Phrase c) : Option Address → Scope → List Happening :=
  p.fold fun p parts way scope =>
    (p.occurrence?.map fun occurrence => ⟨[], occurrence, scope⟩).toList ++
      parts.zipIdx.flatMap fun (part, i) =>
        (part (Address.onward? i way) (p.innerScope way scope)).map (·.under i)

/-- The scope at an address, by the phrases on the way to it. -/
def scopeAt : {c : Category} → Phrase c → Option Address → Scope → Address → Scope
  | _, _, _, scope, [] => scope
  | _, p, way, scope, i :: address =>
    p.parts[i]?.elim scope fun part =>
      part.phrase.scopeAt (Address.onward? i way) (p.innerScope way scope) address

/-- What happens at a phrase is what the walk tells of it. -/
theorem occurs_iff {p : Phrase c} {occurrence : Occurrence} :
    Occurs p occurrence ↔ p.occurrence? = some occurrence := by
  constructor
  · intro h
    cases h <;> rfl
  · intro h
    cases p <;> cases h <;> constructor

theorem setupWalk_eq {σ : Type} (visitor : SetupVisitor σ) (p : Phrase c) (way : Option Address)
    (walk : SetupWalk σ) :
    p.setupWalk visitor way walk =
      (p.parts.zipIdx.foldl
        (fun walk part => part.1.phrase.setupWalk visitor (Address.onward? part.2 way) walk)
        ((walk.tell visitor p).enter (p.frameAt? way))).leave (p.frameAt? way) := by
  unfold setupWalk
  rw [fold_eq]
  simp only [List.zipIdx_map, List.foldl_map]
  rfl

/-- What happens at a phrase comes before what happens in its parts. -/
theorem happenings_eq (p : Phrase c) (way : Option Address) (scope : Scope) :
    p.happenings way scope =
      (p.occurrence?.map fun occurrence => ⟨[], occurrence, scope⟩).toList ++
        p.parts.zipIdx.flatMap fun part =>
          (part.1.phrase.happenings (Address.onward? part.2 way)
            (p.innerScope way scope)).map (·.under part.2) := by
  unfold happenings
  rw [fold_eq, List.zipIdx_map, List.flatMap_map]
  rfl

/-- Only the builder closure puts its parts inside the builder closure. -/
theorem frameAt?_eq_builder {p : Phrase c} {way : Option Address}
    (h : p.frameAt? way = some .builder) : way = some [] := by
  cases p <;> try cases h
  case closure =>
    match way with
    | none => cases h
    | some [] => rfl
    | some (_ :: _) => cases h

/-- Inside a conditional or a loop the scope is one level deeper. -/
theorem depth_innerScope (p : Phrase c) (way : Option Address) (scope : Scope) :
    (p.innerScope way scope).depth = scope.depth + p.isConstruct.toNat := by
  cases p <;> try rfl
  case closure =>
    match way with
    | none => rfl
    | some [] => rfl
    | some (_ :: _) => rfl

/-- Inside of the builder closure no way leads to it any more. -/
theorem insideBuilder_innerScope_of_onward {p : Phrase c} {way : Option Address} {scope : Scope}
    {i : Nat} (hScope : way.isSome → scope.insideBuilder = false)
    (hOnward : (Address.onward? i way).isSome) :
    (p.innerScope way scope).insideBuilder = false := by
  have hWay : way.isSome := by
    cases way with
    | none => simp at hOnward
    | some => rfl
  unfold innerScope
  cases hFrame : p.frameAt? way with
  | none => exact hScope hWay
  | some frame =>
      cases frame with
      | builder =>
          rw [frameAt?_eq_builder hFrame] at hOnward
          cases hOnward
      | conditional => exact hScope hWay
      | loop => exact hScope hWay

/-- A walk tells its visitor what happens, and its scope is in the end what it was. -/
theorem setupWalk_happenings {σ : Type} (visitor : SetupVisitor σ) (p : Phrase c)
    (way : Option Address) (walk : SetupWalk σ)
    (hScope : way.isSome → walk.scope.insideBuilder = false) :
    p.setupWalk visitor way walk =
      ⟨walk.scope, visitor.hear walk.state (p.happenings way walk.scope)⟩ := by
  induction p using induction_parts generalizing way walk with
  | step p ih =>
      -- all parts are walked through in the same scope, the inner one
      have hParts : ∀ (l : List (Node × Nat)) (state : σ), (∀ part ∈ l, part.1 ∈ p.parts) →
          l.foldl
            (fun walk part => part.1.phrase.setupWalk visitor (Address.onward? part.2 way) walk)
            ⟨p.innerScope way walk.scope, state⟩ =
          ⟨p.innerScope way walk.scope, visitor.hear state (l.flatMap fun part =>
            (part.1.phrase.happenings (Address.onward? part.2 way)
              (p.innerScope way walk.scope)).map (·.under part.2))⟩ := by
        intro l
        induction l with
        | nil => intros; rfl
        | cons part l ihl =>
            intro state hl
            rw [List.foldl_cons, ih part.1 (hl part (List.mem_cons_self ..)) _ _
              (insideBuilder_innerScope_of_onward hScope),
              ihl _ fun part h => hl part (List.mem_cons_of_mem _ h)]
            simp only [SetupVisitor.hear, List.flatMap_cons, List.foldl_append, List.foldl_map]
            rfl
      have hTell : (walk.tell visitor p).enter (p.frameAt? way) =
          ⟨p.innerScope way walk.scope, visitor.hear walk.state
            (p.occurrence?.map fun occurrence => ⟨[], occurrence, walk.scope⟩).toList⟩ := by
        unfold SetupWalk.tell
        cases p.occurrence? <;> rfl
      have hMem : ∀ part ∈ p.parts.zipIdx, part.1 ∈ p.parts :=
        fun part h => List.fst_mem_of_mem_zipIdx h
      have hLeave : (p.frameAt? way).elim (p.innerScope way walk.scope)
          (p.innerScope way walk.scope).exit = walk.scope := by
        unfold innerScope
        cases hFrame : p.frameAt? way with
        | none => rfl
        | some frame =>
            refine Scope.exit_enter walk.scope frame fun he => hScope ?_
            rw [frameAt?_eq_builder (hFrame.trans (congrArg some he))]
            rfl
      rw [setupWalk_eq, hTell, hParts _ _ hMem, happenings_eq p, SetupWalk.leave]
      simp only [hLeave, SetupVisitor.hear, List.foldl_append]

/-- Something happens in a phrase iff it happens at the phrase or in one of its parts. -/
theorem mem_happenings_iff_parts {p : Phrase c} {way : Option Address} {scope : Scope}
    {h : Happening} :
    h ∈ p.happenings way scope ↔
      (h.address = [] ∧ h.scope = scope ∧ p.occurrence? = some h.occurrence) ∨
      ∃ (i : Nat) (part : Node) (inner : Happening), p.parts[i]? = some part ∧ h = inner.under i ∧
        inner ∈ part.phrase.happenings (Address.onward? i way) (p.innerScope way scope) := by
  rw [happenings_eq, List.mem_append, List.mem_flatMap]
  apply or_congr
  · obtain ⟨address, occurrence, scope'⟩ := h
    cases p.occurrence? with
    | none => simp
    | some occurrence' =>
        simp only [Option.map_some, Option.toList_some, List.mem_singleton, Happening.mk.injEq,
          Option.some.injEq]
        exact ⟨fun ⟨ha, ho, hs⟩ => ⟨ha, hs, ho.symm⟩, fun ⟨ha, hs, ho⟩ => ⟨ha, ho.symm, hs⟩⟩
  · constructor
    · rintro ⟨⟨part, i⟩, hPart, hMem⟩
      obtain ⟨inner, hInner, rfl⟩ := List.mem_map.mp hMem
      exact ⟨i, part, inner, List.mem_zipIdx_iff_getElem?.mp hPart, rfl, hInner⟩
    · rintro ⟨i, part, inner, hPart, rfl, hInner⟩
      exact ⟨(part, i), List.mem_zipIdx_iff_getElem?.mpr hPart,
        List.mem_map.mpr ⟨inner, hInner, rfl⟩⟩

/-- What happens in a phrase is what the phrases at its addresses stand for, each in the scope
at its address. -/
theorem mem_happenings_iff {p : Phrase c} {way : Option Address} {scope : Scope}
    {h : Happening} :
    h ∈ p.happenings way scope ↔
      (∃ node, p.at? h.address = some node ∧ Occurs node.phrase h.occurrence) ∧
        h.scope = p.scopeAt way scope h.address := by
  induction p using induction_parts generalizing way scope h with
  | step p ih =>
      rw [mem_happenings_iff_parts]
      obtain ⟨address, occurrence, scope'⟩ := h
      cases address with
      | nil =>
          constructor
          · rintro (⟨-, hs, ho⟩ | ⟨i, part, inner, -, he, -⟩)
            · exact ⟨⟨⟨p⟩, rfl, occurs_iff.mpr ho⟩, hs⟩
            · cases he
          · rintro ⟨⟨node, hNode, ho⟩, hs⟩
            cases hNode
            exact Or.inl ⟨rfl, hs, occurs_iff.mp ho⟩
      | cons i address =>
          constructor
          · rintro (⟨hNil, -⟩ | ⟨j, part, inner, hPart, he, hInner⟩)
            · cases hNil
            · cases he
              have h := (ih part (List.mem_of_getElem? hPart)).mp hInner
              simpa [at?_cons, scopeAt, hPart] using h
          · rintro ⟨⟨node, hNode, ho⟩, hs⟩
            obtain ⟨part, hPart, hNode⟩ := Option.bind_eq_some_iff.mp hNode
            simp only [scopeAt, hPart, Option.elim_some] at hs
            exact Or.inr ⟨i, part, ⟨address, occurrence, scope'⟩, hPart, rfl,
              (ih part (List.mem_of_getElem? hPart)).mpr ⟨⟨node, hNode, ho⟩, hs⟩⟩

/-- Happenings come in the order of their addresses, so no two have one address. -/
theorem pairwise_happenings (p : Phrase c) (way : Option Address) (scope : Scope) :
    ((p.happenings way scope).map Happening.address).Pairwise (· < ·) := by
  induction p using induction_parts generalizing way scope with
  | step p ih =>
      let inside (part : Node × Nat) : List Happening :=
        part.1.phrase.happenings (Address.onward? part.2 way) (p.innerScope way scope)
      have hInside : ∀ part ∈ p.parts.zipIdx,
          ((inside part).map Happening.address).Pairwise (· < ·) :=
        fun part hPart => ih part.1 (List.fst_mem_of_mem_zipIdx hPart) _ _
      refine List.Pairwise.sublist ?_ (pairwise_addresses hInside)
      have hUnder : (p.parts.zipIdx.flatMap fun part =>
            (inside part).map (·.under part.2)).map Happening.address =
          p.parts.zipIdx.flatMap fun part =>
            ((inside part).map Happening.address).map (part.2 :: ·) := by
        simp only [List.map_flatMap, List.map_map]
        rfl
      rw [happenings_eq, List.map_append, hUnder, ← List.singleton_append]
      apply List.Sublist.append _ (List.Sublist.refl _)
      cases p.occurrence? with
      | none => exact List.nil_sublist _
      | some occurrence => exact List.Sublist.refl _

/-- The depth at an address is the number of conditionals and loops around it. -/
theorem depth_scopeAt (p : Phrase c) (way : Option Address) (scope : Scope) (address : Address)
    (h : (p.at? address).isSome) :
    (p.scopeAt way scope address).depth =
      scope.depth + (p.enclosing address).countP (·.phrase.isConstruct) := by
  induction address generalizing c p way scope with
  | nil => rfl
  | cons i address ih =>
      obtain ⟨node, hNode⟩ := Option.isSome_iff_exists.mp h
      obtain ⟨part, hPart, hNode⟩ := Option.bind_eq_some_iff.mp hNode
      simp only [scopeAt, enclosing, hPart, Option.elim_some, List.countP_cons]
      rw [ih part.phrase _ _ (Option.isSome_iff_exists.mpr ⟨node, hNode⟩), depth_innerScope]
      cases p.isConstruct with
      | false => simp
      | true =>
          simp only [Bool.toNat_true, if_true]
          omega

/-- Inside the closure at the end of the way the scope is inside the builder closure. -/
theorem insideBuilder_innerScope (p : Phrase c) (way : Option Address) (scope : Scope) :
    (p.innerScope way scope).insideBuilder =
      (scope.insideBuilder || decide (way = some [] ∧ c = .closure)) := by
  cases p
  case closure =>
    match way with
    | none => simp [innerScope, frameAt?, frame?]
    | some [] => simp [innerScope, frameAt?, Scope.enter]
    | some (_ :: _) => simp [innerScope, frameAt?, frame?]
  all_goals simp [innerScope, frameAt?, frame?, Scope.enter]

/-- An address is inside the builder closure iff the way to it goes on from there. -/
theorem insideBuilder_scopeAt (p : Phrase c) (way : Option Address) (scope : Scope)
    (address : Address) (h : (p.at? address).isSome) :
    (p.scopeAt way scope address).insideBuilder = true ↔
      scope.insideBuilder = true ∨
        ∃ (builder : Address) (closure : Closure) (i : Nat) (rest : Address),
          way = some builder ∧ address = builder ++ i :: rest ∧ p.at? builder = some ⟨closure⟩ := by
  induction address generalizing c p way scope with
  | nil => simp [scopeAt]
  | cons i address ih =>
      obtain ⟨node, hNode⟩ := Option.isSome_iff_exists.mp h
      obtain ⟨part, hPart, hNode⟩ := Option.bind_eq_some_iff.mp hNode
      simp only [scopeAt, hPart, Option.elim_some]
      rw [ih part.phrase _ _ (Option.isSome_iff_exists.mpr ⟨node, hNode⟩),
        insideBuilder_innerScope, Bool.or_eq_true, decide_eq_true_iff, or_assoc]
      apply or_congr Iff.rfl
      constructor
      · rintro (⟨rfl, rfl⟩ | ⟨builder, closure, j, rest, hWay, rfl, hBuilder⟩)
        · exact ⟨[], p, i, address, rfl, rfl, rfl⟩
        · cases way with
          | none => cases hWay
          | some way =>
              cases way with
              | nil => cases hWay
              | cons k way =>
                  simp only [Address.onward?, Option.ite_none_right_eq_some,
                    Option.some.injEq] at hWay
                  obtain ⟨rfl, rfl⟩ := hWay
                  exact ⟨i :: way, closure, j, rest, rfl, rfl, by simp [at?_cons, hPart, hBuilder]⟩
      · rintro ⟨builder, closure, j, rest, rfl, hAddress, hBuilder⟩
        cases builder with
        | nil =>
            cases hBuilder
            exact Or.inl ⟨rfl, rfl⟩
        | cons k builder =>
            rw [List.cons_append, List.cons.injEq] at hAddress
            obtain ⟨rfl, rfl⟩ := hAddress
            rw [at?_cons, hPart, Option.bind_some] at hBuilder
            exact Or.inr ⟨builder, closure, j, rest, by simp [Address.onward?], rfl, hBuilder⟩

end Phrase
end SetupLint
