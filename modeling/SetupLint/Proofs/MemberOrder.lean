import SetupLint.Proofs.DecoderSteps

/-! The order of the members of objects. Two trees differ by one swap if two members that follow
each other have changed places, somewhere in the tree. A decoder that goes through the members
of an object one by one does not care, if none of its steps does and two steps may be exchanged. -/
namespace SetupLint.Json

variable {φ : Type} {p : Part}

/-- A member under a key that can be read or not. -/
def entry (key : Except φ String) (value : Json φ .value) (rest : Json φ .members) :
    Json φ .members :=
  match key with
  | .ok key => .member key value rest
  | .error why => .unkeyed why value rest

/-- One tree is the other with two neighbouring members of some object swapped. -/
inductive Swapped : {p : Part} → Json φ p → Json φ p → Prop where
  | swap (key key' : Except φ String) (value value' : Json φ .value) (rest : Json φ .members) :
      Swapped (entry key value (entry key' value' rest)) (entry key' value' (entry key value rest))
  | array {items items' : Json φ .items} (h : Swapped items items') :
      Swapped (.array items) (.array items')
  | object {members members' : Json φ .members} (h : Swapped members members') :
      Swapped (.object members) (.object members')
  | itemValue {value value' : Json φ .value} (rest : Json φ .items) (h : Swapped value value') :
      Swapped (.item value rest) (.item value' rest)
  | itemRest (value : Json φ .value) {rest rest' : Json φ .items} (h : Swapped rest rest') :
      Swapped (.item value rest) (.item value rest')
  | entryValue (key : Except φ String) {value value' : Json φ .value} (rest : Json φ .members)
      (h : Swapped value value') : Swapped (entry key value rest) (entry key value' rest)
  | entryRest (key : Except φ String) (value : Json φ .value) {rest rest' : Json φ .members}
      (h : Swapped rest rest') : Swapped (entry key value rest) (entry key value rest')

/-- A tree that is over has nothing to swap. -/
theorem Swapped.isDone {tree tree' : Json φ p} (h : Swapped tree tree') : tree.isDone = false := by
  cases h with
  | swap key => cases key <;> rfl
  | entryValue key => cases key <;> rfl
  | entryRest key => cases key <;> rfl
  | _ => rfl

/-- The same tree, or one that differs by a swap where swaps are allowed. -/
def Near (swaps : Prop) (tree tree' : Json φ p) : Prop :=
  tree = tree' ∨ (swaps ∧ Swapped tree tree')

namespace Near

variable {swaps : Prop}

theorem refl (tree : Json φ p) : Near swaps tree tree := .inl rfl

/-- Where swaps are allowed trees stay near. -/
theorem mono {other : Prop} (hOther : swaps → other) {tree tree' : Json φ p}
    (h : Near swaps tree tree') : Near other tree tree' :=
  h.imp_right fun ⟨hSwaps, h⟩ => ⟨hOther hSwaps, h⟩

/-- A tree that is near to an array is one. -/
theorem array_inv {items : Json φ .items} {tree : Json φ .value}
    (h : Near swaps (.array items) tree) :
    ∃ items', tree = .array items' ∧ Near swaps items items' := by
  rcases h with rfl | ⟨hSwaps, h⟩
  · exact ⟨items, rfl, refl items⟩
  · cases h with
    | array h => exact ⟨_, rfl, .inr ⟨hSwaps, h⟩⟩

theorem object_inv {members : Json φ .members} {tree : Json φ .value}
    (h : Near swaps (.object members) tree) :
    ∃ members', tree = .object members' ∧ Near swaps members members' := by
  rcases h with rfl | ⟨hSwaps, h⟩
  · exact ⟨members, rfl, refl members⟩
  · cases h with
    | object h => exact ⟨_, rfl, .inr ⟨hSwaps, h⟩⟩

theorem item_inv {value : Json φ .value} {rest tree : Json φ .items}
    (h : Near swaps (.item value rest) tree) :
    ∃ value' rest',
      tree = .item value' rest' ∧ Near swaps value value' ∧ Near swaps rest rest' := by
  rcases h with rfl | ⟨hSwaps, h⟩
  · exact ⟨value, rest, rfl, refl value, refl rest⟩
  · cases h with
    | itemValue _ h => exact ⟨_, rest, rfl, .inr ⟨hSwaps, h⟩, refl rest⟩
    | itemRest _ h => exact ⟨value, _, rfl, refl value, .inr ⟨hSwaps, h⟩⟩

/-- What holds no array and no object is as it was. -/
theorem leaf_inv {value tree : Json φ .value} (h : Near swaps value tree)
    (hLeaf : value.depth = 0) : tree = value := by
  rcases h with rfl | ⟨-, h⟩
  · rfl
  · cases h with
    | array h => cases hLeaf
    | object h => cases hLeaf

/-- Where items or members are over, nothing can be swapped. -/
theorem done_inv {done tree : Json φ p} (h : Near swaps done tree) (hDone : done.isDone = true) :
    tree = done := by
  rcases h with rfl | ⟨-, h⟩
  · rfl
  · rw [h.isDone] at hDone
    cases hDone

/-- A single member is as it was, except for its value. -/
theorem member_inv {key : String} {value : Json φ .value} {tree : Json φ .members}
    (h : Near swaps (.member key value .noMembers) tree) :
    ∃ value', tree = .member key value' .noMembers ∧ Near swaps value value' := by
  rcases h with rfl | ⟨hSwaps, h⟩
  · exact ⟨value, rfl, refl value⟩
  · generalize hTree : Json.member key value .noMembers = members at h
    cases h with
    | swap first second _ _ _ =>
        cases first <;> cases second <;> cases hTree
    | entryValue first _ h =>
        cases first with
        | ok first =>
            cases hTree
            exact ⟨_, rfl, .inr ⟨hSwaps, h⟩⟩
        | error why => cases hTree
    | entryRest first _ h =>
        cases first with
        | ok first =>
            cases hTree
            cases h.isDone
        | error why => cases hTree

end Near

/-- What can be skipped can be skipped in any order. -/
theorem Swapped.skipDefect {tree tree' : Json Fault p} (h : Swapped tree tree')
    (hNone : Json.skipDefect tree = none) : Json.skipDefect tree' = none := by
  induction h with
  | swap key key' value value' rest =>
      cases key <;> cases key' <;> simp_all [entry, Json.skipDefect]
  | array h ih => exact ih hNone
  | object h ih => exact ih hNone
  | itemValue rest h ih => simp_all [Json.skipDefect]
  | itemRest value h ih => simp_all [Json.skipDefect]
  | entryValue key rest h ih => cases key <;> simp_all [entry, Json.skipDefect]
  | entryRest key value h ih => cases key <;> simp_all [entry, Json.skipDefect]

/-- A swap of members does not make a tree unreadable. -/
theorem Swapped.wholeDefect {tree tree' : Json Fault p} (h : Swapped tree tree') {room : Nat}
    (hNone : Json.wholeDefect room tree = none) : Json.wholeDefect room tree' = none := by
  induction h generalizing room with
  | swap key key' value value' rest =>
      cases key <;> cases key' <;> simp_all [entry, Json.wholeDefect]
  | array h ih =>
      cases room with
      | zero => cases hNone
      | succ room => exact ih hNone
  | object h ih =>
      cases room with
      | zero => cases hNone
      | succ room => exact ih hNone
  | itemValue rest h ih => simp_all [Json.wholeDefect]
  | itemRest value h ih => simp_all [Json.wholeDefect]
  | entryValue key rest h ih => cases key <;> simp_all [entry, Json.wholeDefect]
  | entryRest key value h ih => cases key <;> simp_all [entry, Json.wholeDefect]

theorem Near.wholeDefect {swaps : Prop} {tree tree' : Json Fault p} (h : Near swaps tree tree')
    {room : Nat} (hNone : Json.wholeDefect room tree = none) :
    Json.wholeDefect room tree' = none := by
  rcases h with rfl | ⟨-, h⟩
  · exact hNone
  · exact h.wholeDefect hNone

/-- A tree that is read as a whole is read as a whole in any order. -/
theorem Near.checkWhole {swaps : Prop} {place : Place} {tree tree' : Json Fault p}
    (h : Near swaps tree tree') (hCheck : Json.checkWhole place tree = .ok ()) :
    Json.checkWhole place tree' = .ok () :=
  checkWhole_eq_ok.mpr ((checkWhole_eq_ok.mp hCheck).imp_right h.wholeDefect)

/-- A tree with swapped members can be skipped as well. -/
theorem Near.checkSkip {swaps : Prop} {tree tree' : Json Fault p} (h : Near swaps tree tree')
    {u : Unit} (hCheck : Json.checkSkip tree = .ok u) : Json.checkSkip tree' = .ok u := by
  rcases h with rfl | ⟨-, h⟩
  · exact hCheck
  · unfold Json.checkSkip
    rw [h.skipDefect (orFail_eq_ok hCheck)]
    rfl

/-! Going through members. -/

section Fold

variable {σ τ : Type} {step : σ → String → Reading → Except DecodeError σ}
  {step' : τ → String → Reading → Except DecodeError τ} {related : σ → τ → Prop} {swaps : Prop}

/-- Steps that keep states related, also where a value is only near to another. -/
def StepsNear (swaps : Prop) (related : σ → τ → Prop)
    (step : σ → String → Reading → Except DecodeError σ)
    (step' : τ → String → Reading → Except DecodeError τ) : Prop :=
  ∀ s t key value value' s', related s t → Near swaps value value' →
    step s key value = .ok s' → ∃ t', step' t key value' = .ok t' ∧ related s' t'

/-- Steps that may change places. -/
def StepsCommute (step : σ → String → Reading → Except DecodeError σ) : Prop :=
  ∀ s key key' value value' next last, step s key value = .ok next →
    step next key' value' = .ok last →
    ∃ next', step s key' value' = .ok next' ∧ step next' key value = .ok last

theorem foldMembers_self (hNear : StepsNear swaps related step step') {tree : Json Fault p} {s : σ}
    {t : τ} (hRelated : related s t) {s' : σ} (hFold : foldMembers step tree s = .ok s') :
    ∃ t', foldMembers step' tree t = .ok t' ∧ related s' t' := by
  induction tree generalizing s t with
  | member key value rest _ ih =>
      obtain ⟨next, hStep, hRest⟩ := exists_ok_of_bind hFold
      obtain ⟨next', hStep', hNext⟩ := hNear s t key value value next hRelated (.refl value) hStep
      rw [foldMembers, hStep']
      exact ih hNext hRest
  | unkeyed why => cases hFold
  | fault why => cases hFold
  | _ =>
      cases hFold
      exact ⟨t, rfl, hRelated⟩

/-- Related steps lead through the members to related states, also if members are swapped. -/
theorem foldMembers_near (hNear : StepsNear swaps related step step')
    (hCommute : swaps → StepsCommute step) {tree tree' : Json Fault p} (h : Near swaps tree tree')
    {s : σ} {t : τ} (hRelated : related s t) {s' : σ} (hFold : foldMembers step tree s = .ok s') :
    ∃ t', foldMembers step' tree' t = .ok t' ∧ related s' t' := by
  rcases h with rfl | ⟨hSwaps, h⟩
  · exact foldMembers_self hNear hRelated hFold
  · induction h generalizing s t with
    | swap key key' value value' rest =>
        cases key with
        | error why => cases hFold
        | ok key =>
            obtain ⟨next, hFirst, hFold⟩ := exists_ok_of_bind hFold
            cases key' with
            | error why => cases hFold
            | ok key' =>
                obtain ⟨last, hSecond, hRest⟩ := exists_ok_of_bind hFold
                obtain ⟨next', hFirst', hSecond'⟩ :=
                  hCommute hSwaps _ _ _ _ _ _ _ hFirst hSecond
                refine foldMembers_self hNear hRelated ?_
                change step s key' value' >>= (fun s => step s key value >>= foldMembers step rest)
                  = _
                rw [hFirst']
                change step next' key value >>= foldMembers step rest = _
                rw [hSecond']
                exact hRest
    | entryValue key rest h _ =>
        cases key with
        | error why => cases hFold
        | ok key =>
            obtain ⟨next, hStep, hRest⟩ := exists_ok_of_bind hFold
            obtain ⟨next', hStep', hNext⟩ :=
              hNear s t key _ _ next hRelated (.inr ⟨hSwaps, h⟩) hStep
            change ∃ t', step' t key _ >>= foldMembers step' rest = .ok t' ∧ related s' t'
            rw [hStep']
            exact foldMembers_self hNear hNext hRest
    | entryRest key value h ih =>
        cases key with
        | error why => cases hFold
        | ok key =>
            obtain ⟨next, hStep, hRest⟩ := exists_ok_of_bind hFold
            obtain ⟨next', hStep', hNext⟩ :=
              hNear s t key value value next hRelated (.refl value) hStep
            change ∃ t', step' t key value >>= foldMembers step' _ = .ok t' ∧ related s' t'
            rw [hStep']
            exact ih hNext hRest
    | _ =>
        cases hFold
        exact ⟨t, rfl, hRelated⟩

end Fold

end SetupLint.Json
