import SetupLint.Proofs.DecoderSteps
import SetupLint.Proofs.ReadingDepth
import SetupLint.Proofs.WrittenDepth

/-! A unit is written at most one level deeper than it was read. Only what was left out and is
written in full can be deeper, and that is a span or an empty list: one level where nothing
stood. A decoder is shallow, measured by how deep its values are written, if it never gives more
than one level beyond what it was given; the parts of a codec keep this up. -/
namespace SetupLint

open Json (Decoder Document Reading RecordField RecordFields Schema)

namespace Json

/-- A decoder whose values measure at most one more than the depth of what they are read from. -/
def Shallow {α : Type} (measure : α → Nat) (decoder : Decoder α) : Prop :=
  ∀ place reading a, decoder place reading = .ok a → measure a ≤ reading.depth + 1

section Shallow

variable {α β : Type} {measure : α → Nat} {decoder : Decoder α}

/-- What measures nothing is shallow. -/
theorem shallow_zero : Shallow (fun _ => 0) decoder := fun _ _ _ _ => Nat.zero_le _

theorem Shallow.map {f : β → α} {decoder : Decoder β}
    (h : Shallow (fun b => measure (f b)) decoder) :
    Shallow measure fun place reading => (decoder place reading).map f := by
  intro place reading a hMap
  obtain ⟨b, hDecode, rfl⟩ := exists_ok_of_map hMap
  exact h place reading b hDecode

/-- A value that may be `null` is as shallow as one that may not. -/
theorem Shallow.nullable (h : Shallow measure decoder) :
    Shallow (fun a => a.elim 0 measure) (Decode.nullable decoder) := by
  intro place reading a hDecode
  cases a with
  | none => exact Nat.zero_le _
  | some a =>
      unfold Decode.nullable at hDecode
      split at hDecode
      · cases hDecode
      · obtain ⟨b, hDecode, hb⟩ := exists_ok_of_map hDecode
        cases hb
        exact h place reading a hDecode

/-- The largest measure in a list. -/
def deepest (measure : α → Nat) : List α → Nat
  | [] => 0
  | a :: as => max (measure a) (deepest measure as)

/-- No item measures more than the array is deep. -/
theorem Shallow.items {decoder : Reading → Except DecodeError α}
    (h : ∀ reading a, decoder reading = .ok a → measure a ≤ reading.depth + 1) {p : Part}
    {tree : Json Fault p} {as : List α} (hItems : Decode.items decoder tree = .ok as) :
    deepest measure as ≤ tree.depth + 1 := by
  induction tree generalizing as with
  | item value rest _ ih =>
      rw [Decode.items] at hItems
      split at hItems
      · cases hItems
      · next a hValue =>
          obtain ⟨as, hRest, rfl⟩ := exists_ok_of_map hItems
          have hFirst := h value a hValue
          have hOthers := ih hRest
          rw [deepest, Json.depth]
          omega
  | fault why => cases hItems
  | _ =>
      cases hItems
      exact Nat.zero_le _

/-- A list is one level deeper than its deepest element. -/
theorem Shallow.list (h : Shallow measure decoder) :
    Shallow (fun as => deepest measure as + 1) (Decode.list decoder) := by
  intro place reading as hDecode
  obtain ⟨items, inside, rfl, -, hList⟩ := list_iff.mp hDecode
  exact Nat.succ_le_succ (Shallow.items (h inside) hList)

end Shallow

section Records

/-- A measure for each value of a record. -/
inductive Measures : List Type → Type 1 where
  | nil : Measures []
  | cons {α : Type} {αs : List Type} (measure : α → Nat) (rest : Measures αs) : Measures (α :: αs)

def Values.deepest : {αs : List Type} → Measures αs → Values αs → Nat
  | _, .nil, _ => 0
  | _, .cons measure measures, (a, values) => max (measure a) (deepest measures values)

/-- The largest measure among the values that have been met. -/
def Slots.deepest : {αs : List Type} → Measures αs → Slots αs → Nat
  | _, .nil, _ => 0
  | _, .cons measure measures, (a, slots) => max (a.elim 0 measure) (deepest measures slots)

/-- A field whose values are shallow, and that adds at most one level when it is absent. -/
structure RecordField.Shallow {α : Type} (measure : α → Nat) (field : RecordField α) : Prop where
  decode : Json.Shallow measure field.decode
  absent : ∀ a, field.absent = some a → measure a ≤ 1

/-- Fields that are shallow, each by its measure. -/
inductive RecordFields.Shallow : {αs : List Type} → Measures αs → RecordFields αs → Prop where
  | nil : Shallow .nil .nil
  | cons {α : Type} {αs : List Type} {measure : α → Nat} {measures : Measures αs}
      {field : RecordField α} {rest : RecordFields αs} (h : field.Shallow measure)
      (hRest : Shallow measures rest) : Shallow (.cons measure measures) (.cons field rest)

variable {αs : List Type} {measures : Measures αs} {fields : RecordFields αs}

namespace RecordFields.Shallow

theorem deepest_empty (h : fields.Shallow measures) : fields.empty.deepest measures = 0 := by
  induction h with
  | nil => rfl
  | cons _ _ ih => simp [empty, Slots.deepest, ih]

/-- A slot that is filled measures no more than the member for it. -/
theorem put (h : fields.Shallow measures) {place : Place} {key : String} {value : Reading}
    {slots slots' : Slots αs} (hPut : fields.put place key value slots = some (.ok slots')) :
    slots'.deepest measures ≤ max (slots.deepest measures) (value.depth + 1) := by
  induction h with
  | nil => cases hPut
  | cons h _ ih =>
      obtain ⟨slot, slots⟩ := slots
      rcases put_cons_iff.mp hPut with ⟨-, rfl, a, hDecode, rfl⟩ | ⟨-, others, hRest, rfl⟩
      · have hValue := h.decode place value a hDecode
        simp only [Slots.deepest, Option.elim]
        omega
      · have hOthers := ih hRest
        simp only [Slots.deepest]
        omega

/-- A field that is absent adds at most one level. -/
theorem close (h : fields.Shallow measures) {slots : Slots αs} {values : Values αs}
    (hClose : fields.close slots = .ok values) :
    values.deepest measures ≤ max (slots.deepest measures) 1 := by
  induction h with
  | nil => exact Nat.zero_le _
  | @cons _ _ measure _ field _ h _ ih =>
      obtain ⟨slot, slots⟩ := slots
      rw [RecordFields.close] at hClose
      split at hClose
      · cases hClose
      · next a hSlot =>
          obtain ⟨others, hRest, rfl⟩ := exists_ok_of_map hClose
          have hOthers := ih hRest
          have hValue : measure a ≤ max (slot.elim 0 measure) 1 := by
            cases slot with
            | none => exact Nat.le_trans (h.absent a hSlot) (Nat.le_max_right _ _)
            | some b =>
                cases hSlot
                exact Nat.le_max_left _ _
          simp only [Slots.deepest, Values.deepest]
          omega

/-- A record measures at most one more than its members are deep. -/
theorem ofMembers (h : fields.Shallow measures) {place : Place} {members : Json Fault .members}
    {values : Values αs} (hDecode : fields.ofMembers place members = .ok values) :
    values.deepest measures ≤ members.depth + 1 := by
  obtain ⟨slots, hFold, hClose⟩ := ofMembers_iff.mp hDecode
  have hEmpty : fields.empty.deepest measures ≤ members.depth + 1 := by
    rw [h.deepest_empty]
    exact Nat.zero_le _
  have hSlots : slots.deepest measures ≤ members.depth + 1 := by
    refine foldMembers_induction (motive := fun slots => slots.deepest measures ≤ members.depth + 1)
      (fun slots key value next hDeepest hDepth hStep => ?_) (Nat.le_refl _) hEmpty hFold
    rcases step_iff.mp hStep with hPut | ⟨-, -, rfl⟩
    · have hNext := h.put hPut
      omega
    · exact hDeepest
  have hValues := h.close hClose
  omega

theorem ofItems (h : fields.Shallow measures) {place : Place} {index : Nat}
    {items : Json Fault .items} {values : Values αs}
    (hDecode : fields.ofItems place index items = .ok values) :
    values.deepest measures ≤ items.depth + 1 := by
  induction h generalizing index items with
  | nil => exact Nat.zero_le _
  | cons h _ ih =>
      cases items with
      | item value items =>
          rw [RecordFields.ofItems] at hDecode
          split at hDecode
          · cases hDecode
          · next a hValue =>
              obtain ⟨others, hRest, rfl⟩ := exists_ok_of_map hDecode
              have hFirst := h.decode place value a hValue
              have hOthers := ih hRest
              simp only [Values.deepest, Json.depth]
              omega
      | noItems =>
          rw [RecordFields.ofItems] at hDecode
          split at hDecode
          · cases hDecode
          · next a hAbsent =>
              obtain ⟨others, hRest, rfl⟩ := exists_ok_of_map hDecode
              have hFirst := h.absent a hAbsent
              have hOthers := ih hRest
              simp only [Values.deepest]
              omega
      | fault why => cases hDecode

end RecordFields.Shallow

/-- A type whose values measure no more than the fields that they are made from. -/
def Schema.Shallow {α : Type} (measure : α → Nat) (schema : Schema α) : Prop :=
  ∃ measures, schema.fields.Shallow measures ∧
    ∀ values, measure (schema.make values) ≤ values.deepest measures

namespace Schema.Shallow

variable {α β : Type} {measure : α → Nat} {schema : Schema α} {place : Place} {a : α}

theorem map {f : α → β} {measure : β → Nat} (h : schema.Shallow fun a => measure (f a)) :
    (schema.map f).Shallow measure := h

theorem ofMembers (h : schema.Shallow measure) {members : Json Fault .members}
    (hDecode : schema.ofMembers place members = .ok a) : measure a ≤ members.depth + 1 := by
  obtain ⟨measures, hFields, hMake⟩ := h
  obtain ⟨values, hValues, rfl⟩ := exists_ok_of_map hDecode
  exact Nat.le_trans (hMake values) (hFields.ofMembers hValues)

theorem ofItems (h : schema.Shallow measure) {items : Json Fault .items}
    (hDecode : schema.ofItems place items = .ok a) : measure a ≤ items.depth + 1 := by
  obtain ⟨measures, hFields, hMake⟩ := h
  obtain ⟨values, hValues, rfl⟩ := exists_ok_of_map hDecode
  exact Nat.le_trans (hMake values) (hFields.ofItems hValues)

/-- A record is written in an object, one level around its fields. -/
theorem decode (h : schema.Shallow measure) :
    Json.Shallow (fun a => measure a + 1) schema.decode := by
  intro place reading a hDecode
  cases reading with
  | object members =>
      obtain ⟨inside, -, hFields⟩ := decode_object_iff.mp hDecode
      exact Nat.succ_le_succ (h.ofMembers hFields)
  | array items =>
      obtain ⟨inside, -, hFields⟩ := decode_array_iff.mp hDecode
      exact Nat.succ_le_succ (h.ofItems hFields)
  | _ => cases hDecode

end Schema.Shallow

/-- Without its tag an object is no deeper. -/
theorem depth_untagged_le {p : Part} (tree : Json Fault p) :
    (untagged tree).depth ≤ tree.depth := by
  induction tree with
  | member key value rest _ ih =>
      rw [untagged]
      split
      · exact Nat.le_trans ih (Nat.le_max_right _ _)
      · simp only [Json.depth]
        omega
  | _ => exact Nat.le_refl _

variable {α : Type} {measure : α → Nat}

/-- A variant is shallow if all of them are. -/
theorem shallow_tagged {variants : List (String × Schema α)}
    (h : ∀ variant ∈ variants, variant.2.Shallow measure) :
    Shallow (fun a => measure a + 1) (tagged variants) := by
  have hVariant {index : Nat} {name : String} {schema : Schema α}
      (hIndex : variants[index]? = some (name, schema)) : schema.Shallow measure :=
    h _ (List.mem_of_getElem? hIndex)
  intro place reading a hDecode
  cases reading with
  | object members =>
      obtain ⟨inside, index, name, schema, -, -, hIndex, hFields⟩ := tagged_object_iff.mp hDecode
      have hValue := (hVariant hIndex).ofMembers hFields
      have hUntagged := depth_untagged_le members
      simp only [Json.depth]
      omega
  | array items =>
      obtain ⟨value, rest, inside, index, name, schema, rfl, -, -, -, hIndex, hFields⟩ :=
        tagged_array_iff.mp hDecode
      have hValue := (hVariant hIndex).ofItems hFields
      simp only [Json.depth]
      omega
  | _ => cases hDecode

def Case.Shallow (measure : α → Nat) : Case α → Prop
  | .bare value => measure value ≤ 1
  | .holding decode => Json.Shallow measure decode

theorem Case.Shallow.decode {this : Case α} (h : this.Shallow measure) :
    Json.Shallow measure this.decode := by
  intro place reading a hDecode
  cases this with
  | holding decode => exact h place reading a hDecode
  | bare value =>
      unfold Case.decode at hDecode
      cases reading with
      | null =>
          cases hDecode
          exact h
      | array items =>
          obtain ⟨_, -, hDecode⟩ := exists_ok_of_bind hDecode
          cases hDecode
      | object members =>
          obtain ⟨_, -, hDecode⟩ := exists_ok_of_bind hDecode
          cases hDecode
      | _ => cases hDecode

/-- What has been met of a tag and its content is shallow beside members of some depth. -/
def Pairing.Within (measure : α → Nat) (depth : Nat) : Pairing α → Prop
  | .nothing => True
  | .kind this => this.Shallow measure
  | .content reading => reading.depth ≤ depth
  | .both value => measure value ≤ depth + 1

theorem Pairing.Within.close {depth : Nat} {pairing : Pairing α}
    (h : pairing.Within measure depth) {a : α} (hClose : pairing.close = .ok a) :
    measure a ≤ depth + 1 := by
  cases pairing with
  | kind this =>
      cases this with
      | bare value =>
          cases hClose
          exact Nat.le_trans h (Nat.le_add_left 1 depth)
      | holding decode => cases hClose
  | both value =>
      cases hClose
      exact h
  | _ => cases hClose

section Pairing

variable {cases : List (String × Case α)} (h : ∀ case ∈ cases, case.2.Shallow measure)
  {place : Place} {depth : Nat}
include h

/-- A step measures no more than the members that have been met. -/
theorem Pairing.Within.step {pairing next : Pairing α} (hWithin : pairing.Within measure depth)
    {key : String} {value : Reading} (hDepth : value.depth ≤ depth)
    (hStep : PairStep cases place pairing key value next) : next.Within measure depth := by
  have hCase {reading : Reading} {this : Case α} (hChosen : Chosen cases place reading this) :
      this.Shallow measure := by
    obtain ⟨index, name, -, hIndex⟩ := hChosen
    exact h _ (List.mem_of_getElem? hIndex)
  cases hStep with
  | kind hChosen => exact hCase hChosen
  | content => exact hDepth
  | contentOf hContent =>
      exact Nat.le_trans (hWithin.decode _ _ _ hContent) (Nat.succ_le_succ hDepth)
  | kindOf hChosen hWaiting =>
      exact Nat.le_trans ((hCase hChosen).decode _ _ _ hWaiting) (Nat.succ_le_succ hWithin)
  | skip => exact hWithin

/-- A tag beside a content is shallow if all cases are. -/
theorem shallow_paired : Shallow (fun a => measure a + 1) (paired cases) := by
  intro place reading a hDecode
  cases reading with
  | object members =>
      obtain ⟨inside, -, hPair⟩ := paired_object_iff.mp hDecode
      rw [pairMembers_eq_fold] at hPair
      obtain ⟨pairing, hFold, hClose⟩ := exists_ok_of_bind hPair
      have hNothing : Pairing.Within measure members.depth (.nothing : Pairing α) := trivial
      have hWithin : pairing.Within measure members.depth :=
        foldMembers_induction (fun _ _ _ _ hWithin hDepth hStep =>
          hWithin.step h hDepth (pairStep_iff.mp hStep)) (Nat.le_refl _) hNothing hFold
      exact Nat.succ_le_succ (hWithin.close hClose)
  | array items =>
      obtain ⟨kind, content, inside, index, name, this, rfl, -, -, hIndex, hContent⟩ :=
        paired_array_iff.mp hDecode
      have hShallow : this.Shallow measure := h _ (List.mem_of_getElem? hIndex)
      have hValue := hShallow.decode _ _ _ hContent
      simp only [Json.depth]
      omega
  | _ => cases hDecode

end Pairing

end Records

end Json
end SetupLint
