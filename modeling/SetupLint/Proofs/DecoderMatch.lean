import SetupLint.Proofs.MemberOrder
import SetupLint.Tree.Decoding

/-! Decoders that read the same. One decoder matches another if it reads whatever the other reads
as the same value, also from a tree in which members have been swapped. Wherever a tree is held
the order never matters; elsewhere it may. The parts of a codec match if what they are made of
does. -/
namespace SetupLint.Json

/-- The second decoder reads what the first one reads, as the same value, wherever fewer than
`bound` arrays and objects may still be opened. Members may be swapped in held trees, and in
others if `always`. -/
def Matches {α : Type} (bound : Nat) (always : Prop) (decoder decoder' : Decoder α) : Prop :=
  ∀ place : Place, place.room < bound → ∀ reading reading',
    Near (always ∨ place.held = true) reading reading' →
    ∀ a, decoder place reading = .ok a → decoder' place reading' = .ok a

variable {α β : Type} {bound : Nat} {always : Prop}

section Parts

variable {decoder decoder' : Decoder α}

/-- Decoders that match go on to match where less room is left and where fewer swaps are allowed. -/
theorem Matches.mono (h : Matches bound always decoder decoder') {bound' : Nat} {always' : Prop}
    (hBound : bound' ≤ bound) (hAlways : always' → always) :
    Matches bound' always' decoder decoder' :=
  fun place hRoom reading reading' hNear =>
    h place (Nat.lt_of_lt_of_le hRoom hBound) reading reading' (hNear.mono (Or.imp_left hAlways))

/-- A decoder that reads no array and no object matches itself. -/
theorem matches_leaf (h : ∀ place reading a, decoder place reading = .ok a → reading.depth = 0) :
    Matches bound always decoder decoder := by
  intro place _ reading reading' hNear a hDecode
  rw [hNear.leaf_inv (h place reading a hDecode)]
  exact hDecode

theorem Matches.map (h : Matches bound always decoder decoder') (f : α → β) :
    Matches bound always (fun place reading => (decoder place reading).map f)
      (fun place reading => (decoder' place reading).map f) := by
  intro place hRoom reading reading' hNear b hMap
  obtain ⟨a, hDecode, rfl⟩ := exists_ok_of_map hMap
  exact congrArg (Except.map f) (h place hRoom reading reading' hNear a hDecode)

/-- There is nothing to swap in `null`. -/
theorem Near.null_inv {swaps : Prop} {reading : Reading} (h : Near swaps .null reading) :
    reading = .null := h.leaf_inv rfl

theorem Near.ne_null {swaps : Prop} {reading reading' : Reading} (h : Near swaps reading reading')
    (hNull : reading ≠ .null) : reading' ≠ .null := by
  rintro rfl
  rcases h with rfl | ⟨-, h⟩
  · exact hNull rfl
  · cases h

theorem Matches.nullable (h : Matches bound always decoder decoder') :
    Matches bound always (Decode.nullable decoder) (Decode.nullable decoder') := by
  intro place hRoom reading reading' hNear a hDecode
  by_cases hNull : reading = .null
  · subst hNull
    rw [hNear.null_inv]
    exact hDecode
  · rw [nullable_of_ne_null _ _ hNull] at hDecode
    rw [nullable_of_ne_null _ _ (hNear.ne_null hNull)]
    exact h.map some place hRoom reading reading' hNear a hDecode

/-- Items that are near are decoded one by one. -/
theorem Near.items {swaps : Prop} {decode decode' : Reading → Except DecodeError α}
    (h : ∀ value value', Near swaps value value' → ∀ a, decode value = .ok a →
      decode' value' = .ok a) : ∀ {items items' : Json Fault .items} {as : List α},
    Near swaps items items' → Decode.items decode items = .ok as →
      Decode.items decode' items' = .ok as
  | .item value rest, _, as, hNear, hItems => by
      obtain ⟨value', rest', rfl, hValue, hRest⟩ := hNear.item_inv
      rw [Decode.items] at hItems
      split at hItems
      · cases hItems
      · next a hDecode =>
          obtain ⟨others, hOthers, rfl⟩ := exists_ok_of_map hItems
          rw [Decode.items, h value value' hValue a hDecode]
          exact congrArg (Except.map (a :: ·)) (Near.items h hRest hOthers)
  | .noItems, _, as, hNear, hItems => by
      rw [hNear.done_inv rfl]
      exact hItems
  | .fault why, _, _, _, hItems => by cases hItems

/-- Lists match if their elements do, with one level more around them. -/
theorem Matches.list (h : Matches bound always decoder decoder') :
    Matches (bound + 1) always (Decode.list decoder) (Decode.list decoder') := by
  intro place hRoom reading reading' hNear as hDecode
  obtain ⟨items, inside, rfl, hEnter, hList⟩ := list_iff.mp hDecode
  obtain ⟨items', rfl, hItems⟩ := hNear.array_inv
  obtain ⟨hInside, hHeld⟩ := enter_eq_ok hEnter
  rw [← hHeld] at hItems
  exact list_iff.mpr ⟨items', inside, rfl, hEnter, hItems.items (h inside (by omega)) hList⟩

/-- Nothing stands for nothing but `null` and the empty object. -/
theorem nothing_eq_ok {place : Place} {reading : Reading} {u : Unit}
    (h : Decode.nothing place reading = .ok u) :
    reading = .null ∨ reading = .object .noMembers := by
  unfold Decode.nothing at h
  split at h
  · exact .inl rfl
  · exact .inr rfl
  · cases h

/-- An object that is the name of a variant has nothing but the name in it. -/
theorem choice_object_eq_ok {names : List String} {place : Place} {members : Json Fault .members}
    {index : Nat} (h : Decode.choice names place (.object members) = .ok index) :
    ∃ key value, members = .member key value .noMembers ∧
      (value = .null ∨ value = .object .noMembers) := by
  simp only [Decode.choice] at h
  split at h
  · split at h
    · next key value =>
        obtain ⟨_, -, h⟩ := exists_ok_of_bind h
        obtain ⟨_, hNothing, -⟩ := exists_ok_of_bind h
        exact ⟨key, value, rfl, nothing_eq_ok hNothing⟩
    · cases h
  · obtain ⟨_, -, h⟩ := exists_ok_of_bind h
    cases members with
    | member key value rest =>
        obtain ⟨_, -, h⟩ := exists_ok_of_bind h
        obtain ⟨_, hNothing, h⟩ := exists_ok_of_bind h
        cases rest with
        | noMembers => exact ⟨key, value, rfl, nothing_eq_ok hNothing⟩
        | _ => cases h
    | _ => cases h

/-- The name of a variant is read in any order: nothing stands beside it. -/
theorem Near.choice {swaps : Prop} {names : List String} {place : Place}
    {reading reading' : Reading} (h : Near swaps reading reading') {index : Nat}
    (hDecode : Decode.choice names place reading = .ok index) : reading' = reading := by
  cases reading with
  | object members =>
      obtain ⟨key, value, rfl, hValue⟩ := choice_object_eq_ok hDecode
      obtain ⟨members', rfl, hMembers⟩ := h.object_inv
      obtain ⟨value', rfl, hNear⟩ := hMembers.member_inv
      rcases hValue with rfl | rfl
      · rw [hNear.null_inv]
      · obtain ⟨none', rfl, hNone⟩ := hNear.object_inv
        rw [hNone.done_inv rfl]
  | array items =>
      simp only [Decode.choice] at hDecode
      split at hDecode <;> cases hDecode
  | _ => exact h.leaf_inv rfl

theorem matches_word [Worded α] :
    Matches bound always (Worded.decode (α := α)) Worded.decode := by
  intro place _ reading reading' hNear a hDecode
  obtain ⟨index, hChoice, -⟩ := exists_ok_of_bind hDecode
  rw [hNear.choice hChoice]
  exact hDecode

theorem matches_text : Matches bound always Decode.text Decode.text := by
  refine matches_leaf fun place reading a h => ?_
  cases reading with
  | text s => rfl
  | _ => cases h

theorem matches_bool : Matches bound always Decode.bool Decode.bool := by
  refine matches_leaf fun place reading a h => ?_
  cases reading with
  | bool b => rfl
  | _ => cases h

theorem matches_int {low high : Int} :
    Matches bound always (Decode.int low high) (Decode.int low high) := by
  refine matches_leaf fun place reading a h => ?_
  cases reading with
  | number n => rfl
  | _ => cases h

theorem matches_double : Matches bound always Decode.double Decode.double := by
  refine matches_leaf fun place reading a h => ?_
  cases reading with
  | number n => rfl
  | _ => cases h

end Parts

/-! Records. -/

/-- Fields that differ only by decoders, and these match. -/
structure RecordField.Matches (bound : Nat) (always : Prop) (field field' : RecordField α) :
    Prop where
  name : field'.name = field.name
  absent : field'.absent = field.absent
  decode : Json.Matches bound always field.decode field'.decode

namespace RecordFields

/-- Fields that match one by one. -/
inductive Matches (bound : Nat) (always : Prop) :
    {αs : List Type} → RecordFields αs → RecordFields αs → Prop where
  | nil : Matches bound always .nil .nil
  | cons {α : Type} {αs : List Type} {field field' : RecordField α} {rest rest' : RecordFields αs}
      (h : field.Matches bound always field') (hRest : Matches bound always rest rest') :
      Matches bound always (.cons field rest) (.cons field' rest')

variable {αs : List Type} {fields fields' : RecordFields αs} {place : Place} {key : String}
  {value : Reading}

/-- Fields that match have the same names. -/
theorem Matches.names (h : fields.Matches bound always fields') : fields'.names = fields.names := by
  induction h with
  | nil => rfl
  | cons h _ ih => rw [RecordFields.names, RecordFields.names, h.name, ih]

/-- A member that fills its slot does so from a tree near to its value. -/
theorem Matches.put (h : fields.Matches bound always fields') (hRoom : place.room < bound)
    {value' : Reading} (hNear : Near (always ∨ place.held = true) value value')
    {slots next : Slots αs} (hPut : fields.put place key value slots = some (.ok next)) :
    fields'.put place key value' slots = some (.ok next) := by
  induction h with
  | nil => cases hPut
  | cons h _ ih =>
      obtain ⟨slot, slots⟩ := slots
      refine put_cons_iff.mpr ?_
      rw [h.name]
      refine (put_cons_iff.mp hPut).imp ?_ ?_
      · rintro ⟨hName, hSlot, a, hDecode, hNext⟩
        exact ⟨hName, hSlot, a, h.decode place hRoom value value' hNear a hDecode, hNext⟩
      · rintro ⟨hName, others, hRest, hNext⟩
        exact ⟨hName, others, ih hRest, hNext⟩

/-- Two members fill different slots, so it does not matter which comes first. -/
theorem put_comm {fields : RecordFields αs} {key' : String} {value' : Reading}
    {slots next last : Slots αs} (hFirst : fields.put place key value slots = some (.ok next))
    (hSecond : fields.put place key' value' next = some (.ok last)) :
    ∃ next', fields.put place key' value' slots = some (.ok next') ∧
      fields.put place key value next' = some (.ok last) := by
  induction fields with
  | nil => cases hFirst
  | cons field rest ih =>
      obtain ⟨slot, slots⟩ := slots
      rcases put_cons_iff.mp hFirst with ⟨hName, rfl, a, hDecode, rfl⟩ | ⟨hName, others, hRest, rfl⟩
      · rcases put_cons_iff.mp hSecond with ⟨-, hFull, -⟩ | ⟨hName', others, hRest, rfl⟩
        · cases hFull
        · exact ⟨(none, others), put_cons_iff.mpr (.inr ⟨hName', others, hRest, rfl⟩),
            put_cons_iff.mpr (.inl ⟨hName, rfl, a, hDecode, rfl⟩)⟩
      · rcases put_cons_iff.mp hSecond with ⟨hName', rfl, a, hDecode, rfl⟩ |
          ⟨hName', others', hRest', rfl⟩
        · exact ⟨(some a, slots), put_cons_iff.mpr (.inl ⟨hName', rfl, a, hDecode, rfl⟩),
            put_cons_iff.mpr (.inr ⟨hName, others, hRest, rfl⟩)⟩
        · obtain ⟨next', hFirst', hSecond'⟩ := ih hRest hRest'
          exact ⟨(slot, next'), put_cons_iff.mpr (.inr ⟨hName', next', hFirst', rfl⟩),
            put_cons_iff.mpr (.inr ⟨hName, others', hSecond', rfl⟩)⟩

/-- The members of a record may change places, as each has a slot of its own. -/
theorem stepsCommute (fields : RecordFields αs) (place : Place) :
    StepsCommute (fields.step place) := by
  intro slots key key' value value' next last hFirst hSecond
  rcases step_iff.mp hFirst with hPut | ⟨hUnknown, hSkip, rfl⟩
  · rcases step_iff.mp hSecond with hPut' | ⟨hUnknown', hSkip', rfl⟩
    · obtain ⟨next', hFirst', hSecond'⟩ := put_comm hPut hPut'
      exact ⟨next', step_iff.mpr (.inl hFirst'), step_iff.mpr (.inl hSecond')⟩
    · exact ⟨slots, step_iff.mpr (.inr ⟨hUnknown', hSkip', rfl⟩), step_iff.mpr (.inl hPut)⟩
  · exact ⟨last, hSecond, step_iff.mpr (.inr ⟨hUnknown, hSkip, rfl⟩)⟩

/-- A step treats members that are near alike. -/
theorem Matches.stepsNear (h : fields.Matches bound always fields') (hRoom : place.room < bound) :
    StepsNear (always ∨ place.held = true) Eq (fields.step place) (fields'.step place) := by
  rintro slots _ key value value' next rfl hNear hStep
  refine ⟨next, step_iff.mpr ?_, rfl⟩
  rw [h.names]
  refine (step_iff.mp hStep).imp (h.put hRoom hNear) ?_
  rintro ⟨hUnknown, hSkip, hNext⟩
  exact ⟨hUnknown, hNear.checkSkip hSkip, hNext⟩

/-- Fields that match are closed to the same values. -/
theorem Matches.close (h : fields.Matches bound always fields') {slots : Slots αs}
    {values : Values αs} (hClose : fields.close slots = .ok values) :
    fields'.close slots = .ok values := by
  induction h with
  | nil => exact hClose
  | cons h _ ih =>
      obtain ⟨slot, slots⟩ := slots
      rw [RecordFields.close] at hClose ⊢
      rw [h.absent]
      split at hClose
      · cases hClose
      · next a hSlot =>
          obtain ⟨others, hRest, rfl⟩ := exists_ok_of_map hClose
          exact congrArg (Except.map fun values => (a, values)) (ih hRest)

/-- The members of a record may come in any order. -/
theorem Matches.ofMembers (h : fields.Matches bound always fields') (hRoom : place.room < bound)
    {members members' : Json Fault .members}
    (hNear : Near (always ∨ place.held = true) members members') {values : Values αs}
    (hDecode : fields.ofMembers place members = .ok values) :
    fields'.ofMembers place members' = .ok values := by
  have hEmpty : fields'.empty = fields.empty := by
    clear hDecode values
    induction h with
    | nil => rfl
    | cons h _ ih => rw [RecordFields.empty, RecordFields.empty, ih]
  obtain ⟨slots, hFold, hClose⟩ := ofMembers_iff.mp hDecode
  obtain ⟨_, hFold', rfl⟩ := foldMembers_near (h.stepsNear hRoom)
    (fun _ => fields.stepsCommute place) hNear rfl hFold
  rw [← hEmpty] at hFold'
  exact ofMembers_iff.mpr ⟨slots, hFold', h.close hClose⟩

/-- A record that is written as an array has no members of its own that could be swapped. -/
theorem Matches.ofItems (h : fields.Matches bound always fields') (hRoom : place.room < bound)
    {index : Nat} {items items' : Json Fault .items}
    (hNear : Near (always ∨ place.held = true) items items') {values : Values αs}
    (hDecode : fields.ofItems place index items = .ok values) :
    fields'.ofItems place index items' = .ok values := by
  induction h generalizing index items items' with
  | nil =>
      cases items with
      | noItems =>
          rw [hNear.done_inv rfl]
          exact hDecode
      | item value rest =>
          rw [RecordFields.ofItems] at hDecode
          split at hDecode <;> cases hDecode
      | fault why => cases hDecode
  | cons h _ ih =>
      cases items with
      | noItems =>
          rw [hNear.done_inv rfl]
          rw [RecordFields.ofItems] at hDecode ⊢
          rw [h.absent]
          split at hDecode
          · cases hDecode
          · next a hAbsent =>
              obtain ⟨others, hRest, rfl⟩ := exists_ok_of_map hDecode
              exact congrArg (Except.map fun values => (a, values)) (ih (.refl .noItems) hRest)
      | item value rest =>
          obtain ⟨value', rest', rfl, hValue, hRest⟩ := hNear.item_inv
          rw [RecordFields.ofItems] at hDecode ⊢
          split at hDecode
          · cases hDecode
          · next a hFirst =>
              obtain ⟨others, hOthers, rfl⟩ := exists_ok_of_map hDecode
              rw [h.decode place hRoom value value' hValue a hFirst]
              exact congrArg (Except.map fun values => (a, values)) (ih hRest hOthers)
      | fault why => cases hDecode

end RecordFields

namespace Schema

/-- Schemas that differ only by the decoders of their fields, and these match. -/
inductive Matches (bound : Nat) (always : Prop) : Schema α → Schema α → Prop where
  | mk {types : List Type} {fields fields' : RecordFields types} (make : Values types → α)
      (h : fields.Matches bound always fields') :
      Matches bound always ⟨fields, make⟩ ⟨fields', make⟩

namespace Matches

variable {schema schema' : Schema α} (h : schema.Matches bound always schema') {place : Place}
  {a : α}
include h

theorem map (f : α → β) : (schema.map f).Matches bound always (schema'.map f) := by
  cases h with
  | mk make h => exact .mk _ h

/-- A record is decoded alike from members in another order. -/
theorem ofMembers (hRoom : place.room < bound) {members members' : Json Fault .members}
    (hNear : Near (always ∨ place.held = true) members members')
    (hDecode : schema.ofMembers place members = .ok a) :
    schema'.ofMembers place members' = .ok a := by
  cases h with
  | mk make h =>
      obtain ⟨values, hValues, rfl⟩ := exists_ok_of_map hDecode
      exact congrArg (Except.map make) (h.ofMembers hRoom hNear hValues)

theorem ofItems (hRoom : place.room < bound) {items items' : Json Fault .items}
    (hNear : Near (always ∨ place.held = true) items items')
    (hDecode : schema.ofItems place items = .ok a) : schema'.ofItems place items' = .ok a := by
  cases h with
  | mk make h =>
      obtain ⟨values, hValues, rfl⟩ := exists_ok_of_map hDecode
      exact congrArg (Except.map make) (h.ofItems hRoom hNear hValues)

/-- Matching schemas decode alike, with one level around their members. -/
theorem decode : Json.Matches (bound + 1) always schema.decode schema'.decode := by
  intro place hRoom reading reading' hNear a hDecode
  cases reading with
  | object members =>
      obtain ⟨members', rfl, hMembers⟩ := hNear.object_inv
      obtain ⟨inside, hEnter, hFields⟩ := decode_object_iff.mp hDecode
      obtain ⟨hInside, hHeld⟩ := enter_eq_ok hEnter
      rw [← hHeld] at hMembers
      exact decode_object_iff.mpr ⟨inside, hEnter, h.ofMembers (by omega) hMembers hFields⟩
  | array items =>
      obtain ⟨items', rfl, hItems⟩ := hNear.array_inv
      obtain ⟨inside, hEnter, hFields⟩ := decode_array_iff.mp hDecode
      obtain ⟨hInside, hHeld⟩ := enter_eq_ok hEnter
      rw [← hHeld] at hItems
      exact decode_array_iff.mpr ⟨inside, hEnter, h.ofItems (by omega) hItems hFields⟩
  | _ => cases hDecode

end Matches

end Schema

end SetupLint.Json
