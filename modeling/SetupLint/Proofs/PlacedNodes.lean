import Mathlib.Data.List.Basic
import SetupLint.Proofs.Roots

/-! The phrases of a tree with their addresses, in the order of the source, and the context that a
walk carries to an address. A walk finds what it finds at each of these phrases in the context
there. So it can be described address by address, without the course it takes. -/
namespace SetupLint

/-- A phrase and its address in a tree. -/
structure PlacedNode where
  address : Address
  node : Node

/-- A phrase as it is placed in a larger tree. -/
def PlacedNode.under (i : Nat) (placed : PlacedNode) : PlacedNode :=
  { placed with address := i :: placed.address }

section

variable {κ α β : Type} {place : α → κ} {find? : α → Option β} {l : List α}

/-- What is found in some things, each with the place of the thing. -/
def foundAt (place : α → κ) (find? : α → Option β) (l : List α) : List (κ × β) :=
  l.filterMap fun a => (find? a).map (place a, ·)

/-- Without the places these are the things that are found. -/
theorem map_snd_foundAt : (foundAt place find? l).map Prod.snd = l.filterMap find? := by
  rw [foundAt, List.map_filterMap]
  refine List.filterMap_congr fun a _ => ?_
  rw [Option.map_map]
  exact Option.map_id'

/-- What is found at a place is found in the thing at this place. -/
theorem mem_foundAt_iff {k : κ} {b : β} :
    (k, b) ∈ foundAt place find? l ↔ ∃ a ∈ l, place a = k ∧ find? a = some b := by
  rw [foundAt, List.mem_filterMap]
  refine exists_congr fun a => and_congr_right fun _ => ?_
  simp only [Option.map_eq_some_iff, Prod.mk.injEq]
  constructor
  · rintro ⟨_, hFound, hPlace, rfl⟩
    exact ⟨hPlace, hFound⟩
  · rintro ⟨hPlace, hFound⟩
    exact ⟨b, hFound, hPlace, rfl⟩

/-- What is found comes in the order of the things. -/
theorem pairwise_foundAt {r : κ → κ → Prop} (h : (l.map place).Pairwise r) :
    ((foundAt place find? l).map Prod.fst).Pairwise r := by
  rw [List.pairwise_map] at h ⊢
  refine h.filterMap _ fun a b hab first hFirst second hSecond => ?_
  obtain ⟨-, -, rfl⟩ := Option.map_eq_some_iff.mp hFirst
  obtain ⟨-, -, rfl⟩ := Option.map_eq_some_iff.mp hSecond
  exact hab

end

section

variable {α β : Type} {l : List α}

/-- What is found in some things one after the other. An address starts with the number of the thing
and goes on in it. -/
def foundInEach (find : α → List (Address × β)) (l : List α) : List (Address × β) :=
  l.zipIdx.flatMap fun a => (find a.1).map fun found => (a.2 :: found.1, found.2)

variable {find : α → List (Address × β)}

theorem map_snd_foundInEach :
    (foundInEach find l).map Prod.snd = l.flatMap fun a => (find a).map Prod.snd := by
  rw [foundInEach, List.map_flatMap, ← flatMap_zipIdx fun a => (find a).map Prod.snd]
  refine List.flatMap_congr fun a _ => ?_
  rw [List.map_map]
  rfl

/-- What is found in one of some things has the number of the thing in front. -/
theorem mem_foundInEach_iff {address : Address} {b : β} :
    (address, b) ∈ foundInEach find l ↔
      ∃ i a inner, l[i]? = some a ∧ address = i :: inner ∧ (inner, b) ∈ find a := by
  rw [foundInEach, List.mem_flatMap]
  constructor
  · rintro ⟨⟨a, i⟩, hMem, hFound⟩
    obtain ⟨⟨inner, found⟩, hInner, hPair⟩ := List.mem_map.mp hFound
    cases hPair
    exact ⟨i, a, inner, List.mem_zipIdx_iff_getElem?.mp hMem, rfl, hInner⟩
  · rintro ⟨i, a, inner, hMem, rfl, hInner⟩
    exact ⟨(a, i), List.mem_zipIdx_iff_getElem?.mpr hMem, List.mem_map.mpr ⟨_, hInner, rfl⟩⟩

/-- What is found in each thing in order is found in order on the whole. -/
theorem pairwise_foundInEach (h : ∀ a ∈ l, ((find a).map Prod.fst).Pairwise (· < ·)) :
    ((foundInEach find l).map Prod.fst).Pairwise (· < ·) := by
  have hInside := pairwise_addresses (l := l) (f := fun a => (find a.1).map Prod.fst)
    fun a ha => h a.1 (List.fst_mem_of_mem_zipIdx ha)
  rw [foundInEach, List.map_flatMap]
  simp only [List.map_map] at hInside ⊢
  exact (List.pairwise_cons.mp hInside).2

end

namespace Phrase

variable {c : Category}

/-- The phrases in a phrase with their addresses, in the order of the source. -/
def placedNodes (p : Phrase c) : List PlacedNode :=
  p.fold fun p parts =>
    ⟨[], ⟨p⟩⟩ :: parts.zipIdx.flatMap fun (part, i) => part.map (·.under i)

/-- The context that a walk carries to an address. -/
def contextAt {γ α : Type} (w : Walk γ α) : {c : Category} → Phrase c → γ → Address → γ
  | _, _, context, [] => context
  | _, p, context, i :: address =>
    p.parts[i]?.elim (w.within p i context) fun part =>
      part.phrase.contextAt w (w.within p i context) address

/-- A phrase comes before its parts, each of which has its number in front. -/
theorem placedNodes_eq (p : Phrase c) :
    p.placedNodes =
      ⟨[], ⟨p⟩⟩ :: p.parts.zipIdx.flatMap fun part =>
        part.1.phrase.placedNodes.map (·.under part.2) := by
  unfold placedNodes
  rw [fold_eq, List.zipIdx_map, List.flatMap_map]
  rfl

/-- There is one placed phrase for each address. -/
theorem mem_placedNodes_iff {p : Phrase c} {placed : PlacedNode} :
    placed ∈ p.placedNodes ↔ p.at? placed.address = some placed.node := by
  induction p using induction_parts generalizing placed with
  | step p ih =>
      obtain ⟨address, node⟩ := placed
      rw [placedNodes_eq, List.mem_cons, List.mem_flatMap]
      constructor
      · rintro (hRoot | ⟨⟨part, i⟩, hPart, hPlaced⟩)
        · cases hRoot
          rfl
        · obtain ⟨inner, hInner, hUnder⟩ := List.mem_map.mp hPlaced
          cases hUnder
          have hNode := (ih part (List.fst_mem_of_mem_zipIdx hPart)).mp hInner
          simp [at?_cons, List.mem_zipIdx_iff_getElem?.mp hPart, hNode]
      · intro hNode
        cases address with
        | nil =>
            cases hNode
            exact Or.inl rfl
        | cons i address =>
            obtain ⟨part, hPart, hNode⟩ := Option.bind_eq_some_iff.mp hNode
            have hInner : ⟨address, node⟩ ∈ part.phrase.placedNodes :=
              (ih part (List.mem_of_getElem? hPart)).mpr hNode
            exact Or.inr ⟨(part, i), List.mem_zipIdx_iff_getElem?.mpr hPart,
              List.mem_map.mpr ⟨_, hInner, rfl⟩⟩

theorem map_address_placedNodes (p : Phrase c) :
    p.placedNodes.map PlacedNode.address =
      [] :: p.parts.zipIdx.flatMap fun part =>
        (part.1.phrase.placedNodes.map PlacedNode.address).map (part.2 :: ·) := by
  rw [placedNodes_eq, List.map_cons, List.map_flatMap]
  simp only [List.map_map]
  rfl

/-- Placed phrases come in the order of their addresses. -/
theorem pairwise_placedNodes (p : Phrase c) :
    (p.placedNodes.map PlacedNode.address).Pairwise (· < ·) := by
  induction p using induction_parts with
  | step p ih =>
      rw [map_address_placedNodes]
      exact pairwise_addresses fun part hPart => ih part.1 (List.fst_mem_of_mem_zipIdx hPart)

/-- A walk finds what it finds at each phrase, in the context that it carries there. -/
theorem walk_eq_placedNodes {γ α : Type} (w : Walk γ α) (p : Phrase c) (context : γ) :
    p.walk w context = p.placedNodes.flatMap fun placed =>
      w.visit placed.node.phrase (p.contextAt w context placed.address) := by
  induction p using induction_parts generalizing context with
  | step p ih =>
      rw [walk_eq, placedNodes_eq, List.flatMap_cons, List.flatMap_assoc]
      congr 1
      refine List.flatMap_congr fun indexed hIndexed => ?_
      obtain ⟨part, i⟩ := indexed
      have hPart : p.parts[i]? = some part := List.mem_zipIdx_iff_getElem?.mp hIndexed
      have hWalk := ih part (List.mem_of_getElem? hPart) (w.within p i context)
      simp [List.flatMap_map, hWalk, PlacedNode.under, contextAt, hPart]

/-- The context of a part of what stands at an address. -/
theorem contextAt_concat {γ α : Type} (w : Walk γ α) {p : Phrase c} {address : Address}
    {node : Node} (h : p.at? address = some node) (context : γ) (i : Nat) :
    p.contextAt w context (address ++ [i]) =
      w.within node.phrase i (p.contextAt w context address) := by
  induction address generalizing c p context with
  | nil =>
      cases h
      show p.parts[i]?.elim _ _ = _
      cases p.parts[i]? <;> rfl
  | cons j address ih =>
      obtain ⟨part, hPart, hNode⟩ := Option.bind_eq_some_iff.mp h
      simp only [List.cons_append, contextAt, hPart, Option.elim_some]
      exact ih hNode _

end Phrase

namespace CompilationUnit

/-- The phrase at an address in a unit. An address starts with the number of a root. -/
def at? (u : CompilationUnit) : Address → Option Node
  | [] => none
  | i :: address => u.roots[i]?.bind fun root => root.phrase.at? address

/-- The phrases of a unit with their addresses, in the order of the source. -/
def placedNodes (u : CompilationUnit) : List PlacedNode :=
  u.roots.zipIdx.flatMap fun root => root.1.phrase.placedNodes.map (·.under root.2)

/-- The context that a walk through a unit carries to an address. -/
def contextAt {γ α : Type} (w : Walk γ α) (u : CompilationUnit) (context : γ) : Address → γ
  | [] => context
  | i :: address =>
    u.roots[i]?.elim context fun root => root.phrase.contextAt w context address

/-- An address leads on from what stands at another one to its parts. -/
theorem at?_concat {u : CompilationUnit} {address : Address} {node : Node}
    (h : u.at? address = some node) (i : Nat) :
    u.at? (address ++ [i]) = node.phrase.parts[i]? := by
  cases address with
  | nil => cases h
  | cons j address =>
      obtain ⟨root, hRoot, hNode⟩ := Option.bind_eq_some_iff.mp h
      show u.roots[j]?.bind (fun root => root.phrase.at? (address ++ [i])) = _
      rw [hRoot, Option.bind_some, Phrase.at?_append, hNode, Option.bind_some, Phrase.at?_cons]
      exact Option.bind_fun_some _

/-- The context of a part comes from that of the phrase around it. -/
theorem contextAt_concat {γ α : Type} (w : Walk γ α) {u : CompilationUnit} {address : Address}
    {node : Node} (h : u.at? address = some node) (context : γ) (i : Nat) :
    u.contextAt w context (address ++ [i]) =
      w.within node.phrase i (u.contextAt w context address) := by
  cases address with
  | nil => cases h
  | cons j address =>
      obtain ⟨root, hRoot, hNode⟩ := Option.bind_eq_some_iff.mp h
      simp only [List.cons_append, contextAt, hRoot, Option.elim_some]
      exact Phrase.contextAt_concat w hNode context i

/-- A unit has the phrases that its addresses lead to. -/
theorem mem_placedNodes_iff {u : CompilationUnit} {placed : PlacedNode} :
    placed ∈ u.placedNodes ↔ u.at? placed.address = some placed.node := by
  obtain ⟨address, node⟩ := placed
  rw [placedNodes, List.mem_flatMap]
  constructor
  · rintro ⟨⟨root, i⟩, hRoot, hPlaced⟩
    obtain ⟨inner, hInner, hUnder⟩ := List.mem_map.mp hPlaced
    cases hUnder
    exact Option.bind_eq_some_iff.mpr
      ⟨root, List.mem_zipIdx_iff_getElem?.mp hRoot, Phrase.mem_placedNodes_iff.mp hInner⟩
  · intro hNode
    cases address with
    | nil => cases hNode
    | cons i address =>
        obtain ⟨root, hRoot, hNode⟩ := Option.bind_eq_some_iff.mp hNode
        exact ⟨(root, i), List.mem_zipIdx_iff_getElem?.mpr hRoot,
          List.mem_map.mpr ⟨⟨address, node⟩, Phrase.mem_placedNodes_iff.mpr hNode, rfl⟩⟩

/-- The phrases of a unit are in the order of their addresses. -/
theorem pairwise_placedNodes (u : CompilationUnit) :
    (u.placedNodes.map PlacedNode.address).Pairwise (· < ·) := by
  have hRoots := pairwise_addresses (l := u.roots)
    (f := fun root => root.1.phrase.placedNodes.map PlacedNode.address)
    fun root _ => root.1.phrase.pairwise_placedNodes
  rw [placedNodes, List.map_flatMap]
  simp only [List.map_map] at hRoots ⊢
  exact (List.pairwise_cons.mp hRoots).2

/-- A walk through a unit finds what it finds at each phrase, in the context that it carries
there. -/
theorem walk_eq_placedNodes {γ α : Type} (w : Walk γ α) (u : CompilationUnit) (context : γ) :
    u.walk w context = u.placedNodes.flatMap fun placed =>
      w.visit placed.node.phrase (u.contextAt w context placed.address) := by
  rw [walk_eq_roots, ← flatMap_zipIdx fun root : Node => root.phrase.walk w context, placedNodes,
    List.flatMap_assoc]
  refine List.flatMap_congr fun indexed hIndexed => ?_
  obtain ⟨root, i⟩ := indexed
  have hRoot : u.roots[i]? = some root := List.mem_zipIdx_iff_getElem?.mp hIndexed
  rw [List.flatMap_map, Phrase.walk_eq_placedNodes]
  simp [PlacedNode.under, contextAt, hRoot]

end CompilationUnit
end SetupLint
