import SetupLint.Linter
import SetupLint.Proofs.SetupPlaces

/-! Dependency keys that may collide, by the types that they are written with. The search goes down
a type argument and stops at the first collision, so that each type argument is reported once at
most. In the list of all types in an argument this is the first wrapper of a common type, however
deep it stands. -/
namespace SetupLint

namespace TypeRef

mutual

/-- A type and the types inside of it, each before its type arguments. -/
def preorder : TypeRef → List TypeRef
  | t@⟨_, _, args, _⟩ => t :: preorderAll args

def preorderAll : List TypeRef → List TypeRef
  | [] => []
  | t :: types => t.preorder ++ preorderAll types

end

/-- A wrapper type with a common type among its type arguments. -/
structure WrapsCommon (t : TypeRef) (catalogs : Catalogs) : Prop where
  isWrapper : t.simpleName ∈ catalogs.wrapperTypes.entries
  hasCommon : ∃ arg ∈ t.args, arg.simpleName ∈ catalogs.primitiveTypes.entries

/-- The first wrapper of a common type in a type, and the first common type among the type arguments
of this wrapper. -/
structure CollidesFirst (t : TypeRef) (catalogs : Catalogs) (wrapper common : TypeRef) : Prop where
  firstWrapper : ∃ before after, t.preorder = before ++ wrapper :: after ∧
    ∀ other ∈ before, ¬ other.WrapsCommon catalogs
  isWrapper : wrapper.simpleName ∈ catalogs.wrapperTypes.entries
  firstCommon : ∃ before after, wrapper.args = before ++ common :: after ∧
    ∀ other ∈ before, other.simpleName ∉ catalogs.primitiveTypes.entries
  isCommon : common.simpleName ∈ catalogs.primitiveTypes.entries

end TypeRef

/-- The warning about a type argument of a method, by the wrapper and the common type in it. -/
def keyWarning (method : Name) (type wrapper common : TypeRef) : Diagnostic where
  rule := "provide-inject-type-match"
  severity := .warning
  message := mention wrapper.simpleName ++ " wraps " ++ mention common.simpleName ++
    " and may collide with other " ++ mention wrapper.text ++ " dependencies in `" ++
    method.text ++ "<" ++ type.text ++ ">`"
  span := type.span
  help := some
    "Wrap the value in a dedicated type, e.g. `State<Username>` instead of `State<String>`"

namespace CompilationUnit

/-- A type argument of a call that provides or injects a dependency, with the method of the call.
Its place is the address of the call and the number of the type argument. -/
inductive HasKey (u : CompilationUnit) (v : Vocabulary) :
    Address × Nat → Name → TypeRef → Prop where
  | intro {address : Address} {i : Nat} {span : Span} {target : Phrase (.option .expr)}
      {method : Name} {typeArgs : List TypeRef} {args : Phrase (.list .argument)}
      {nullAware : Bool} {resolved : Option Resolution} {type : TypeRef}
      (call : u.at? address = some ⟨.call span target method typeArgs args nullAware resolved⟩)
      (dependency : method.text = v.provide ∨ method.text = v.inject)
      (topLevel : CallsTopLevel target resolved) (argument : typeArgs[i]? = some type) :
      HasKey u v (address, i) method type

/-- The findings about dependency keys in a unit, each with its place. -/
structure KeyTrace (u : CompilationUnit) (catalogs : Catalogs)
    (trace : List ((Address × Nat) × Diagnostic)) : Prop where
  /-- An address is less than another one if it comes first or leads to it. -/
  ordered : (trace.map Prod.fst).Pairwise (Prod.Lex (· < ·) (· < ·))
  complete : ∀ place, place ∈ trace.map Prod.fst ↔
    ∃ method type, u.HasKey catalogs.vocabulary place method type ∧
      ∃ inner ∈ type.preorder, inner.WrapsCommon catalogs
  exactly : ∀ place d, (place, d) ∈ trace ↔ ∃ method type wrapper common,
    u.HasKey catalogs.vocabulary place method type ∧ type.CollidesFirst catalogs wrapper common ∧
      d = keyWarning method type wrapper common

end CompilationUnit

/-! ### The search in a type -/

namespace Rule

section

variable {catalogs : Catalogs} {t : TypeRef} {x : Collision}

/-- The search of a type itself finds the type and the first common one among its arguments. -/
theorem directCollision?_eq_some_iff :
    directCollision? catalogs t = some x ↔
      t.simpleName ∈ catalogs.wrapperTypes.entries ∧ t = x.wrapper ∧
        x.common.simpleName ∈ catalogs.primitiveTypes.entries ∧
        ∃ before after, t.args = before ++ x.common :: after ∧
          ∀ other ∈ before, other.simpleName ∉ catalogs.primitiveTypes.entries := by
  obtain ⟨wrapper, common⟩ := x
  rw [directCollision?, Option.ite_none_right_eq_some, Option.map_eq_some_iff]
  simp only [Collision.mk.injEq, List.find?_eq_some_iff_append, Catalog.contains,
    decide_eq_true_iff, Bool.not_eq_true', decide_eq_false_iff_not]
  refine and_congr_right fun _ => ⟨?_, ?_⟩
  · rintro ⟨_, ⟨isCommon, firstCommon⟩, rfl, rfl⟩
    exact ⟨rfl, isCommon, firstCommon⟩
  · rintro ⟨rfl, isCommon, firstCommon⟩
    exact ⟨common, ⟨isCommon, firstCommon⟩, rfl, rfl⟩

/-- A type collides by itself iff it is a wrapper of a common type. -/
theorem isSome_directCollision?_iff :
    (directCollision? catalogs t).isSome = true ↔ t.WrapsCommon catalogs := by
  have hCommon : (t.args.find? fun arg => catalogs.primitiveTypes.contains arg.simpleName).isSome =
      true ↔ ∃ arg ∈ t.args, arg.simpleName ∈ catalogs.primitiveTypes.entries := by
    simp only [List.find?_isSome, Catalog.contains, decide_eq_true_iff]
  rw [directCollision?]
  constructor
  · intro h
    split at h
    · rename_i hWrapper
      rw [Option.isSome_map] at h
      exact ⟨of_decide_eq_true hWrapper, hCommon.mp h⟩
    · cases h
  · rintro ⟨isWrapper, hasCommon⟩
    have hWrapper : catalogs.wrapperTypes.contains t.simpleName = true := decide_eq_true isWrapper
    rw [if_pos hWrapper, Option.isSome_map]
    exact hCommon.mpr hasCommon

mutual

/-- The search finds what is found first in the list of all types. -/
theorem collision?_eq_findSome? (catalogs : Catalogs) : (t : TypeRef) →
    collision? catalogs t = t.preorder.findSome? (directCollision? catalogs)
  | ⟨span, name, args, nullable⟩ => by
    rw [collision?, TypeRef.preorder, List.findSome?_cons,
      firstCollision?_eq_findSome? catalogs args]
    cases directCollision? catalogs ⟨span, name, args, nullable⟩ <;> rfl

/-- The first collision in some types is that of the first type in preorder that collides by itself.
-/
theorem firstCollision?_eq_findSome? (catalogs : Catalogs) : (types : List TypeRef) →
    firstCollision? catalogs types =
      (TypeRef.preorderAll types).findSome? (directCollision? catalogs)
  | [] => rfl
  | t :: types => by
    rw [firstCollision?, TypeRef.preorderAll, List.findSome?_append,
      collision?_eq_findSome? catalogs t, firstCollision?_eq_findSome? catalogs types,
      Option.orElse_eq_orElse, Option.orElse_eq_or]

end

/-- The search finds the first wrapper of a common type, and the first common type in it. -/
theorem collision?_eq_some_iff :
    collision? catalogs t = some x ↔ t.CollidesFirst catalogs x.wrapper x.common := by
  have hBefore : ∀ other, directCollision? catalogs other = none ↔
      ¬ other.WrapsCommon catalogs := by
    intro other
    rw [← isSome_directCollision?_iff, Bool.not_eq_true, Option.isSome_eq_false_iff,
      Option.isNone_iff_eq_none]
  rw [collision?_eq_findSome?, List.findSome?_eq_some_iff]
  simp only [hBefore]
  constructor
  · rintro ⟨before, wrapper, after, hSplit, hFound, hNone⟩
    obtain ⟨isWrapper, rfl, isCommon, firstCommon⟩ := directCollision?_eq_some_iff.mp hFound
    exact ⟨⟨before, after, hSplit, hNone⟩, isWrapper, firstCommon, isCommon⟩
  · rintro ⟨⟨before, after, hSplit, hNone⟩, isWrapper, firstCommon, isCommon⟩
    exact ⟨before, x.wrapper, after, hSplit,
      directCollision?_eq_some_iff.mpr ⟨isWrapper, rfl, isCommon, firstCommon⟩, hNone⟩

/-- Something is found iff there is a wrapper of a common type at any depth. -/
theorem isSome_collision?_iff :
    (collision? catalogs t).isSome = true ↔
      ∃ inner ∈ t.preorder, inner.WrapsCommon catalogs := by
  simp only [collision?_eq_findSome?, List.findSome?_isSome_iff, isSome_directCollision?_iff]

end

/-! ### The findings of a call -/

/-- The findings for a call, each with the number of the type argument. -/
def numberedKeys (catalogs : Catalogs) (call : Call) : List (Nat × Diagnostic) :=
  if isDependencyCall catalogs.vocabulary call then
    foundAt Prod.snd (fun type => keyFinding? catalogs call type.1) call.typeArgs.zipIdx
  else []

variable {catalogs : Catalogs} {call : Call}

theorem map_snd_numberedKeys :
    (numberedKeys catalogs call).map Prod.snd = keyFindings catalogs call := by
  have hArgs : call.typeArgs.zipIdx.filterMap (fun type => keyFinding? catalogs call type.1) =
      call.typeArgs.filterMap (keyFinding? catalogs call) := by
    conv_rhs => rw [← List.zipIdx_map_fst 0 call.typeArgs, List.filterMap_map]
    rfl
  rw [numberedKeys, keyFindings]
  split
  · rw [map_snd_foundAt, hArgs]
  · rfl

/-- The findings for a call are in the order of its type arguments. -/
theorem pairwise_numberedKeys :
    ((numberedKeys catalogs call).map Prod.fst).Pairwise (· < ·) := by
  rw [numberedKeys]
  split
  · exact pairwise_foundAt (List.pairwise_map.mpr (pairwise_zipIdx _))
  · exact List.Pairwise.nil

/-- A type argument has a finding iff the call is about a dependency and the type collides. -/
theorem mem_numberedKeys_iff {i : Nat} {d : Diagnostic} :
    (i, d) ∈ numberedKeys catalogs call ↔
      isDependencyCall catalogs.vocabulary call = true ∧
        ∃ type, call.typeArgs[i]? = some type ∧ keyFinding? catalogs call type = some d := by
  rw [numberedKeys]
  split
  · rename_i hCall
    rw [mem_foundAt_iff]
    simp [hCall, List.mem_zipIdx_iff_getElem?]
  · rename_i hCall
    simp [hCall]

end Rule

/-! ### The findings of a unit -/

namespace CompilationUnit

/-- The findings at a phrase of a unit with their places. -/
def keysAt (catalogs : Catalogs) (placed : PlacedNode) : List ((Address × Nat) × Diagnostic) :=
  placed.node.phrase.call?.elim [] fun call =>
    (Rule.numberedKeys catalogs call).map fun found => ((placed.address, found.1), found.2)

/-- The findings about dependency keys with their places. -/
def placedKeys (u : CompilationUnit) (catalogs : Catalogs) : List ((Address × Nat) × Diagnostic) :=
  u.placedNodes.flatMap (keysAt catalogs)

variable {u : CompilationUnit} {catalogs : Catalogs} {v : Vocabulary} {address : Address} {i : Nat}
  {d : Diagnostic}

/-- The place of a finding is that of its call and the number of its type argument. -/
theorem mem_keysAt_iff {placed : PlacedNode} :
    ((address, i), d) ∈ keysAt catalogs placed ↔ address = placed.address ∧
      ∃ call, placed.node.phrase.call? = some call ∧ (i, d) ∈ Rule.numberedKeys catalogs call := by
  rw [keysAt]
  cases placed.node.phrase.call? with
  | none => simp
  | some call =>
      rw [Option.elim_some, List.mem_map]
      constructor
      · rintro ⟨found, hKey, hEq⟩
        cases hEq
        exact ⟨rfl, call, rfl, hKey⟩
      · rintro ⟨rfl, _, hCall, hKey⟩
        cases hCall
        exact ⟨_, hKey, rfl⟩

/-- The walk gives the findings in their order. -/
theorem checkDependencies_eq (catalogs : Catalogs) (u : CompilationUnit) :
    Rule.checkDependencies catalogs u = (u.placedKeys catalogs).map Prod.snd := by
  rw [Rule.checkDependencies, walk_eq_placedNodes, placedKeys, List.map_flatMap]
  refine List.flatMap_congr fun placed _ => ?_
  show placed.node.phrase.call?.elim [] (Rule.keyFindings catalogs) = _
  rw [keysAt]
  cases placed.node.phrase.call? with
  | none => rfl
  | some call =>
      rw [Option.elim_some, Option.elim_some, List.map_map, ← Rule.map_snd_numberedKeys]
      rfl

/-- The places come call by call, and in a call type argument by type argument. -/
theorem pairwise_placedKeys (catalogs : Catalogs) (u : CompilationUnit) :
    ((u.placedKeys catalogs).map Prod.fst).Pairwise (Prod.Lex (· < ·) (· < ·)) := by
  rw [List.pairwise_map, placedKeys, List.pairwise_flatMap]
  constructor
  · intro placed _
    rw [keysAt]
    cases placed.node.phrase.call? with
    | none => exact List.Pairwise.nil
    | some call =>
        rw [Option.elim_some, List.pairwise_map]
        exact (List.pairwise_map.mp Rule.pairwise_numberedKeys).imp fun h => .right _ h
  · refine (List.pairwise_map.mp u.pairwise_placedNodes).imp fun hlt => ?_
    rintro ⟨⟨address, i⟩, d⟩ hFirst ⟨⟨address', i'⟩, d'⟩ hSecond
    obtain ⟨rfl, -⟩ := mem_keysAt_iff.mp hFirst
    obtain ⟨rfl, -⟩ := mem_keysAt_iff.mp hSecond
    exact .left _ _ hlt

/-- A key is a type argument of a call that stands at an address of the unit. -/
theorem hasKey_iff {method : Name} {type : TypeRef} :
    u.HasKey v (address, i) method type ↔
      ∃ node call, u.at? address = some node ∧ node.phrase.call? = some call ∧
        Rule.isDependencyCall v call = true ∧ call.method = method ∧
        call.typeArgs[i]? = some type := by
  have hDependency : ∀ call : Call, Rule.isDependencyCall v call = true ↔
      (call.method.text = v.provide ∨ call.method.text = v.inject) ∧ call.isTopLevel = true := by
    intro call
    simp [Rule.isDependencyCall]
  constructor
  · rintro ⟨call, dependency, topLevel, argument⟩
    exact ⟨_, _, call, rfl, (hDependency _).mpr ⟨dependency, (callsTopLevel_iff rfl).mp topLevel⟩,
      rfl, argument⟩
  · rintro ⟨⟨p⟩, call, hNode, hCall, hKey, rfl, argument⟩
    obtain ⟨dependency, topLevel⟩ := (hDependency call).mp hKey
    cases p <;> cases hCall
    exact .intro hNode dependency ((callsTopLevel_iff rfl).mpr topLevel) argument

/-- Something is found at a place iff there is a type argument with a collision, and then its first
collision is told. -/
theorem mem_placedKeys_iff :
    ((address, i), d) ∈ u.placedKeys catalogs ↔ ∃ method type wrapper common,
      u.HasKey catalogs.vocabulary (address, i) method type ∧
        type.CollidesFirst catalogs wrapper common ∧
        d = keyWarning method type wrapper common := by
  rw [placedKeys, List.mem_flatMap]
  constructor
  · rintro ⟨placed, hPlaced, hFound⟩
    obtain ⟨rfl, call, hCall, hKey⟩ := mem_keysAt_iff.mp hFound
    obtain ⟨hDependency, type, hType, hFinding⟩ := Rule.mem_numberedKeys_iff.mp hKey
    obtain ⟨collision, hCollision, rfl⟩ := Option.map_eq_some_iff.mp hFinding
    exact ⟨call.method, type, collision.wrapper, collision.common,
      hasKey_iff.mpr
        ⟨placed.node, call, mem_placedNodes_iff.mp hPlaced, hCall, hDependency, rfl, hType⟩,
      Rule.collision?_eq_some_iff.mp hCollision, rfl⟩
  · rintro ⟨method, type, wrapper, common, hKey, hFirst, rfl⟩
    obtain ⟨node, call, hNode, hCall, hDependency, rfl, hType⟩ := hasKey_iff.mp hKey
    have hCollision : Rule.collision? catalogs type = some ⟨wrapper, common⟩ :=
      Rule.collision?_eq_some_iff.mpr hFirst
    have hFinding : Rule.keyFinding? catalogs call type =
        some (keyWarning call.method type wrapper common) :=
      Option.map_eq_some_iff.mpr ⟨_, hCollision, rfl⟩
    exact ⟨⟨address, node⟩, mem_placedNodes_iff.mpr hNode, mem_keysAt_iff.mpr
      ⟨rfl, call, hCall, Rule.mem_numberedKeys_iff.mpr ⟨hDependency, type, hType, hFinding⟩⟩⟩

/-- The findings about dependency keys are, in the order of the calls and there of the type
arguments, one for each type argument of a call that provides or injects a dependency in which a
wrapper of a common type stands at any depth. They tell the first of these. -/
theorem findings_dependencyKey (catalogs : Catalogs) (u : CompilationUnit) :
    ∃ trace, Rule.dependencyKey.findings catalogs u = trace.map Prod.snd ∧
      u.KeyTrace catalogs trace := by
  have hComponents : (u.components catalogs.vocabulary).flatMap
      (Rule.dependencyKey.checkComponent catalogs) = [] :=
    List.flatMap_eq_nil_iff.mpr fun _ _ => rfl
  refine ⟨u.placedKeys catalogs, ?_, u.pairwise_placedKeys catalogs, ?_,
    fun _ _ => mem_placedKeys_iff⟩
  · rw [Rule.findings, hComponents, List.nil_append]
    exact checkDependencies_eq catalogs u
  · rintro ⟨address, i⟩
    constructor
    · intro hPlace
      obtain ⟨⟨_, d⟩, hMem, rfl⟩ := List.mem_map.mp hPlace
      obtain ⟨method, type, wrapper, common, hKey, hFirst, -⟩ := mem_placedKeys_iff.mp hMem
      have hCollision : Rule.collision? catalogs type = some ⟨wrapper, common⟩ :=
        Rule.collision?_eq_some_iff.mpr hFirst
      exact ⟨method, type, hKey,
        Rule.isSome_collision?_iff.mp (Option.isSome_iff_exists.mpr ⟨_, hCollision⟩)⟩
    · rintro ⟨method, type, hKey, hWraps⟩
      obtain ⟨collision, hCollision⟩ :=
        Option.isSome_iff_exists.mp (Rule.isSome_collision?_iff.mpr hWraps)
      exact List.mem_map.mpr ⟨_, mem_placedKeys_iff.mpr ⟨method, type, _, _, hKey,
        Rule.collision?_eq_some_iff.mp hCollision, rfl⟩, rfl⟩

end CompilationUnit
end SetupLint
