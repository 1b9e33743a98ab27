import SetupLint.Proofs.RecordDecoding

/-! What a decoder that succeeds has gone through. For each form that a value may be written in
there are the steps that lead to it, and what one step can do; the members of an object are gone
through one by one, so what holds of a whole object follows from its steps. -/
namespace SetupLint.Json

variable {α : Type} {place inside : Place} {reading : Reading} {a : α}

/-- The room inside an array or object is smaller. -/
theorem enter_eq_ok (h : place.enter = .ok inside) :
    place.room = inside.room + 1 ∧ inside.held = place.held := by
  obtain ⟨room, held⟩ := place
  cases room with
  | zero => cases h
  | succ room =>
      cases h
      exact ⟨rfl, rfl⟩

/-- Entering and holding a tree may change places. -/
theorem enter_hold (h : place.enter = .ok inside) : place.hold.enter = .ok inside.hold := by
  obtain ⟨room, held⟩ := place
  cases room with
  | zero => cases h
  | succ room =>
      cases h
      rfl

/-- What is not `null` is decoded as if it had to be there. -/
theorem nullable_of_ne_null (decoder : Decoder α) (place : Place) (h : reading ≠ .null) :
    Decode.nullable decoder place reading = (decoder place reading).map some := by
  unfold Decode.nullable
  split
  · exact absurd rfl h
  · rfl

/-- A list is decoded from the items of an array, one level further in. -/
theorem list_iff {decoder : Decoder α} {as : List α} :
    Decode.list decoder place reading = .ok as ↔
      ∃ items inside, reading = .array items ∧ place.enter = .ok inside ∧
        Decode.items (decoder inside) items = .ok as := by
  refine ⟨fun h => ?_, ?_⟩
  · unfold Decode.list at h
    split at h
    · next items =>
        split at h
        · cases h
        · next inside hEnter => exact ⟨items, inside, rfl, hEnter, h⟩
    · cases h
  · rintro ⟨items, inside, rfl, hEnter, hItems⟩
    simp only [Decode.list, hEnter, hItems]

/-! Going through members. -/

/-- Go through the members of an object, one step for each. -/
def foldMembers {σ : Type} (step : σ → String → Reading → Except DecodeError σ) :
    {p : Part} → Json Fault p → σ → Except DecodeError σ
  | _, .member key value rest, s => step s key value >>= foldMembers step rest
  | _, .unkeyed why _ _, _ => .error why.onRead.error
  | _, .fault why, _ => .error why.onRead.error
  | _, _, s => .ok s

/-- What every step preserves holds at the end of the members. -/
theorem foldMembers_induction {σ : Type} {step : σ → String → Reading → Except DecodeError σ}
    {motive : σ → Prop} {depth : Nat}
    (hStep : ∀ s key value next, motive s → value.depth ≤ depth → step s key value = .ok next →
      motive next) {p : Part} {tree : Json Fault p} (hDepth : tree.depth ≤ depth) {s s' : σ}
    (h : motive s) (hFold : foldMembers step tree s = .ok s') : motive s' := by
  induction tree generalizing s with
  | member key value rest _ ih =>
      obtain ⟨next, hNext, hRest⟩ := exists_ok_of_bind hFold
      rw [Json.depth, Nat.max_le] at hDepth
      exact ih hDepth.2 (hStep s key value next h hDepth.1 hNext) hRest
  | unkeyed why => cases hFold
  | fault why => cases hFold
  | _ =>
      cases hFold
      exact h

/-- The keys of members, as far as they can be read. -/
def keys : {p : Part} → Json Fault p → List String
  | _, .member key _ rest => key :: rest.keys
  | _, .unkeyed _ _ rest => rest.keys
  | _, _ => []

def isKeyed : {p : Part} → Json Fault p → Bool
  | _, .member _ _ rest => rest.isKeyed
  | _, .unkeyed _ _ _ => false
  | _, .fault _ => false
  | _, _ => true

/-- Going through members to the end takes keys that can be read. -/
theorem isKeyed_of_fold {σ : Type} {step : σ → String → Reading → Except DecodeError σ} {p : Part}
    {tree : Json Fault p} {s s' : σ} (h : foldMembers step tree s = .ok s') :
    tree.isKeyed = true := by
  induction tree generalizing s with
  | member key value rest _ ih =>
      obtain ⟨next, -, hRest⟩ := exists_ok_of_bind h
      exact ih hRest
  | unkeyed why => cases h
  | fault why => cases h
  | _ => rfl

/-! Reading as a whole. -/

section Whole

variable {room : Nat} {key : String} {value : Reading}

theorem orFail_eq_ok {defect : Option Defect} {u : Unit} (h : orFail defect = .ok u) :
    defect = none := by
  cases defect with
  | none => rfl
  | some defect => cases h

/-- An object takes up one level of the room. -/
theorem wholeDefect_object {members : Json Fault .members} :
    wholeDefect room (.object members) = none ↔
      ∃ inside, room = inside + 1 ∧ wholeDefect inside members = none := by
  cases room <;> simp [wholeDefect]

theorem wholeDefect_array {items : Json Fault .items} :
    wholeDefect room (.array items) = none ↔
      ∃ inside, room = inside + 1 ∧ wholeDefect inside items = none := by
  cases room <;> simp [wholeDefect]

theorem wholeDefect_member {rest : Json Fault .members} :
    wholeDefect room (.member key value rest) = none ↔
      wholeDefect room value = none ∧ wholeDefect room rest = none := by
  simp [wholeDefect]

theorem wholeDefect_item {rest : Json Fault .items} :
    wholeDefect room (.item value rest) = none ↔
      wholeDefect room value = none ∧ wholeDefect room rest = none := by
  simp [wholeDefect]

/-- A tree that is held has been read as a whole before. -/
theorem checkWhole_eq_ok {p : Part} {tree : Json Fault p} :
    checkWhole place tree = .ok () ↔
      place.held = true ∨ wholeDefect place.room tree = none := by
  unfold checkWhole
  cases place.held
  · cases wholeDefect place.room tree <;> simp [orFail]
  · simp

theorem checkWhole_member {rest : Json Fault .members} :
    checkWhole place (.member key value rest) = .ok () ↔
      checkWhole place value = .ok () ∧ checkWhole place rest = .ok () := by
  simp only [checkWhole_eq_ok, wholeDefect_member]
  tauto

end Whole

/-! Records. -/

namespace RecordFields

variable {αs : List Type} {fields : RecordFields αs} {key : String} {value : Reading}

/-- There is no slot for a key that is not a field. -/
theorem put_eq_none_iff (fields : RecordFields αs) (slots : Slots αs) :
    fields.put place key value slots = none ↔ key ∉ fields.names := by
  induction fields with
  | nil => simp [put, RecordFields.names]
  | cons field rest ih =>
      obtain ⟨slot, slots⟩ := slots
      simp only [put, RecordFields.names, List.mem_cons, not_or]
      split
      · next hName => cases slot <;> simp [hName]
      · next hName => simp [ih, Ne.symm hName]

/-- Go on with a member, known or not. -/
def step (place : Place) (fields : RecordFields αs) (slots : Slots αs) (key : String)
    (value : Reading) : Except DecodeError (Slots αs) :=
  match fields.put place key value slots with
  | some result => result
  | none => (checkSkip value).map fun _ => slots

/-- Filling slots goes through the members one by one. -/
theorem putAll_eq_fold (fields : RecordFields αs) {p : Part} (tree : Json Fault p)
    (slots : Slots αs) :
    fields.putAll place tree slots = foldMembers (fields.step place) tree slots := by
  induction tree generalizing slots with
  | member key value rest _ ih =>
      rw [putAll, foldMembers, step]
      split
      · next slots hPut =>
          rw [hPut]
          exact ih slots
      · next e hPut =>
          rw [hPut]
          rfl
      · next hPut =>
          rw [hPut]
          cases checkSkip value with
          | ok _ => exact ih slots
          | error e => rfl
  | _ => rfl

/-- A record is decoded in one step for each member and closed at the end. -/
theorem ofMembers_iff {members : Json Fault .members} {values : Values αs} :
    fields.ofMembers place members = .ok values ↔
      ∃ slots, foldMembers (fields.step place) members fields.empty = .ok slots ∧
        fields.close slots = .ok values := by
  unfold RecordFields.ofMembers
  rw [putAll_eq_fold]
  cases foldMembers (fields.step place) members fields.empty <;> simp

/-- A member fills the empty slot of the first field, or a slot behind it. -/
theorem put_cons_iff {field : RecordField α} {rest : RecordFields αs} {slot : Option α}
    {slots : Slots αs} {next : Slots (α :: αs)} :
    (RecordFields.cons field rest).put place key value (slot, slots) = some (.ok next) ↔
      (field.name = key ∧ slot = none ∧
        ∃ a, field.decode place value = .ok a ∧ next = (some a, slots)) ∨
      (field.name ≠ key ∧
        ∃ others, rest.put place key value slots = some (.ok others) ∧ next = (slot, others)) := by
  refine ⟨fun h => ?_, ?_⟩
  · simp only [put] at h
    split at h
    · next hName =>
        split at h
        · cases h
        · obtain ⟨a, hDecode, rfl⟩ := exists_ok_of_map (Option.some.inj h)
          exact .inl ⟨hName, rfl, a, hDecode, rfl⟩
    · next hName =>
        obtain ⟨result, hRest, hResult⟩ := Option.map_eq_some_iff.mp h
        obtain ⟨others, rfl, rfl⟩ := exists_ok_of_map hResult
        exact .inr ⟨hName, others, hRest, rfl⟩
  · rintro (⟨hName, rfl, a, hDecode, rfl⟩ | ⟨hName, others, hRest, rfl⟩)
    · simp only [put, if_pos hName, hDecode]
      rfl
    · simp only [put, if_neg hName, hRest]
      rfl

/-- A member fills its slot, or is skipped if it is unknown. -/
theorem step_iff {slots next : Slots αs} :
    fields.step place slots key value = .ok next ↔
      fields.put place key value slots = some (.ok next) ∨
      (key ∉ fields.names ∧ checkSkip value = .ok () ∧ next = slots) := by
  unfold step
  split
  · next result hPut =>
      have hKnown : key ∈ fields.names := by
        by_contra hUnknown
        rw [(put_eq_none_iff fields slots).mpr hUnknown] at hPut
        cases hPut
      simp [hPut, hKnown]
  · next hPut =>
      have hUnknown := (put_eq_none_iff fields slots).mp hPut
      cases hSkip : checkSkip value <;> simp [hPut, hUnknown, Except.map, eq_comm]

end RecordFields

section Records

variable {schema : Schema α} {members : Json Fault .members} {items : Json Fault .items}

/-- A record in an object is decoded one level further in. -/
theorem decode_object_iff : schema.decode place (.object members) = .ok a ↔
    ∃ inside, place.enter = .ok inside ∧ schema.ofMembers inside members = .ok a := by
  unfold Schema.decode
  cases hEnter : place.enter <;> simp

theorem decode_array_iff : schema.decode place (.array items) = .ok a ↔
    ∃ inside, place.enter = .ok inside ∧ schema.ofItems inside items = .ok a := by
  unfold Schema.decode
  cases hEnter : place.enter <;> simp

end Records

/-! Variants. -/

/-- Without a tag nothing is left out. -/
theorem untagged_of_notMem {p : Part} {tree : Json Fault p} (h : tagKey ∉ tree.keys) :
    untagged tree = tree := by
  induction tree with
  | member key value rest _ ih =>
      rw [keys, List.mem_cons, not_or] at h
      rw [untagged, if_neg (Ne.symm h.1), ih h.2]
  | _ => rfl

/-- Only the tag is left out. -/
theorem untagged_first {tag : Reading} {members : Json Fault .members}
    (h : tagKey ∉ members.keys) : untagged (.member tagKey tag members) = members := by
  rw [untagged, if_pos rfl, untagged_of_notMem h]

section Tags

variable {names : List String} {key : String} {value : Reading}

/-- A tag has no parts. -/
theorem tag_depth {index : Nat} (h : Decode.tag names place reading = .ok index) :
    reading.depth = 0 := by
  cases reading with
  | array items => cases h
  | object members => cases h
  | _ => rfl

/-- Go on with a tag or another member. -/
def tagStep (names : List String) (place : Place) (found : Option Nat) (key : String)
    (value : Reading) : Except DecodeError (Option Nat) :=
  if key = tagKey then
    match found with
    | some _ => .error (.duplicateField tagKey)
    | none => (Decode.tag names place value).map some
  else (checkWhole place value).map fun _ => found

/-- The tag that has been found. -/
def tagFound : Option Nat → Except DecodeError Nat
  | some index => .ok index
  | none => .error (.missingField tagKey)

/-- The tag is looked for in one step for each member. -/
theorem findTag_eq_fold {p : Part} (tree : Json Fault p) (found : Option Nat) :
    findTag names place tree found = foldMembers (tagStep names place) tree found >>= tagFound := by
  induction tree generalizing found with
  | member key value rest _ ih =>
      simp only [findTag, foldMembers, tagStep]
      split
      · cases found with
        | some index => rfl
        | none =>
            cases Decode.tag names place value with
            | ok index => exact ih (some index)
            | error e => rfl
      · cases checkWhole place value with
        | ok _ => exact ih found
        | error e => rfl
  | _ => cases found <;> rfl

/-- A member is the tag or is read as a whole. -/
theorem tagStep_iff {found next : Option Nat} :
    tagStep names place found key value = .ok next ↔
      (key = tagKey ∧ found = none ∧
        ∃ index, Decode.tag names place value = .ok index ∧ next = some index) ∨
      (key ≠ tagKey ∧ checkWhole place value = .ok () ∧ next = found) := by
  unfold tagStep
  by_cases hTag : key = tagKey
  · cases found with
    | some index => simp [hTag]
    | none => cases Decode.tag names place value <;> simp [hTag, Except.map, eq_comm]
  · cases checkWhole place value <;> simp [hTag, Except.map, eq_comm]

/-- Behind a tag there are members that can be read as a whole, and no other tag. -/
theorem findTag_some_iff {p : Part} (hMembers : p = .members)
    {tree : Json Fault p} {index found : Nat} :
    findTag names place tree (some found) = .ok index ↔
      index = found ∧ tagKey ∉ tree.keys ∧ tree.isKeyed = true ∧
        checkWhole place tree = .ok () := by
  induction tree with
  | member key value rest _ ih =>
      rw [findTag, checkWhole_member, keys, isKeyed, List.mem_cons, not_or]
      by_cases hTag : key = tagKey
      · simp [hTag]
      · rw [if_neg hTag]
        cases checkWhole place value with
        | ok _ => simp [ih, Ne.symm hTag]
        | error e => simp
  | unkeyed why => simp [findTag, isKeyed]
  | fault why => simp [findTag, isKeyed]
  | noMembers =>
      have hCheck : checkWhole place (.noMembers : Json Fault .members) = .ok () :=
        checkWhole_eq_ok.mpr (.inr rfl)
      simp [findTag, keys, isKeyed, hCheck, eq_comm]
  | _ => cases hMembers

/-- Where the tag comes first, it is read before all else is. -/
theorem findTag_first_iff {index : Nat} {tag : Reading} {members : Json Fault .members} :
    findTag names place (.member tagKey tag members) none = .ok index ↔
      Decode.tag names place tag = .ok index ∧ tagKey ∉ members.keys ∧
        members.isKeyed = true ∧ checkWhole place members = .ok () := by
  rw [findTag, if_pos rfl]
  cases Decode.tag names place tag with
  | ok found =>
      rw [Except.ok.injEq, eq_comm (a := found)]
      exact findTag_some_iff rfl
  | error e => simp

end Tags

section Variants

variable {variants : List (String × Schema α)} {members : Json Fault .members}
  {items : Json Fault .items}

/-- A variant in an object: the tag may be anywhere among the members, so the fields are decoded
from what was held. -/
theorem tagged_object_iff : tagged variants place (.object members) = .ok a ↔
    ∃ inside index name schema, place.enter = .ok inside ∧
      findTag (variants.map (·.1)) inside members none = .ok index ∧
      variants[index]? = some (name, schema) ∧
      schema.ofMembers inside.hold (untagged members) = .ok a := by
  refine ⟨fun h => ?_, ?_⟩
  · obtain ⟨inside, hEnter, hInside⟩ := exists_ok_of_bind h
    obtain ⟨index, hTag, hFields⟩ := exists_ok_of_bind hInside
    cases hIndex : variants[index]? with
    | none =>
        rw [hIndex] at hFields
        cases hFields
    | some variant =>
        rw [hIndex] at hFields
        exact ⟨inside, index, variant.1, variant.2, hEnter, hTag, hIndex, hFields⟩
  · rintro ⟨inside, index, name, schema, hEnter, hTag, hIndex, hFields⟩
    simp only [tagged, hEnter, hTag, hIndex, bind, Except.bind, hFields]

/-- A variant in an array has its tag as the first item. -/
theorem tagged_array_iff : tagged variants place (.array items) = .ok a ↔
    ∃ value rest inside index name schema, items = .item value rest ∧
      place.enter = .ok inside ∧ Decode.tag (variants.map (·.1)) inside value = .ok index ∧
      checkWhole inside rest = .ok () ∧ variants[index]? = some (name, schema) ∧
      schema.ofItems inside.hold rest = .ok a := by
  refine ⟨fun h => ?_, ?_⟩
  · obtain ⟨inside, hEnter, hInside⟩ := exists_ok_of_bind h
    cases items with
    | item value rest =>
        obtain ⟨index, hTag, hBehind⟩ := exists_ok_of_bind hInside
        obtain ⟨_, hCheck, hFields⟩ := exists_ok_of_bind hBehind
        cases hIndex : variants[index]? with
        | none =>
            rw [hIndex] at hFields
            cases hFields
        | some variant =>
            rw [hIndex] at hFields
            exact ⟨value, rest, inside, index, variant.1, variant.2, rfl, hEnter, hTag, hCheck,
              hIndex, hFields⟩
    | _ => cases hInside
  · rintro ⟨value, rest, inside, index, name, schema, rfl, hEnter, hTag, hCheck, hIndex, hFields⟩
    simp only [tagged, hEnter, hTag, hCheck, hIndex, bind, Except.bind, hFields]

end Variants

/-! A tag beside a content. -/

/-- The case whose name stands in a tree. -/
def Chosen (cases : List (String × Case α)) (place : Place) (reading : Reading) (this : Case α) :
    Prop :=
  ∃ index name, Decode.choice (cases.map (·.1)) place reading = .ok index ∧
    cases[index]? = some (name, this)

/-- What a member adds to a tag and its content. -/
inductive PairStep (cases : List (String × Case α)) (place : Place) :
    Pairing α → String → Reading → Pairing α → Prop where
  | kind {value : Reading} {this : Case α} (h : Chosen cases place value this) :
      PairStep cases place .nothing kindKey value (.kind this)
  | content {value : Reading} (h : checkWhole place value = .ok ()) :
      PairStep cases place .nothing contentKey value (.content value)
  | contentOf {this : Case α} {value : Reading} {a : α} (h : this.decode place value = .ok a) :
      PairStep cases place (.kind this) contentKey value (.both a)
  | kindOf {waiting value : Reading} {this : Case α} {a : α} (h : Chosen cases place value this)
      (hWaiting : this.decode place.hold waiting = .ok a) :
      PairStep cases place (.content waiting) kindKey value (.both a)
  | skip {pairing : Pairing α} {key : String} {value : Reading} (hKind : key ≠ kindKey)
      (hContent : key ≠ contentKey) (h : checkSkip value = .ok ()) :
      PairStep cases place pairing key value pairing

/-- Go on with a member: a tag, a content, or one that is skipped. -/
def pairStep (cases : List (String × Case α)) (place : Place) (pairing : Pairing α) (key : String)
    (value : Reading) : Except DecodeError (Pairing α) :=
  if key = kindKey ∨ key = contentKey then pairing.step cases place key value
  else (checkSkip value).map fun _ => pairing

section Pairs

variable {cases : List (String × Case α)} {pairing next : Pairing α} {key : String}
  {value : Reading}

/-- A tag beside a content is met in one step for each member. -/
theorem pairMembers_eq_fold {p : Part} (tree : Json Fault p) :
    pairMembers cases place tree pairing =
      foldMembers (pairStep cases place) tree pairing >>= Pairing.close := by
  induction tree generalizing pairing with
  | member key value rest _ ih =>
      rw [pairMembers, foldMembers, pairStep]
      split
      · cases pairing.step cases place key value with
        | ok next => exact ih
        | error e => rfl
      · cases checkSkip value with
        | ok _ => exact ih
        | error e => rfl
  | _ => rfl

/-- The tag and the content are read differently only in what has been met before. -/
theorem pairStep_iff :
    pairStep cases place pairing key value = .ok next ↔
      PairStep cases place pairing key value next := by
  refine ⟨fun h => ?_, ?_⟩
  · unfold pairStep at h
    split at h
    · next hKey =>
        cases pairing with
        | nothing =>
            simp only [Pairing.step] at h
            split at h
            · next hKind =>
                subst hKind
                obtain ⟨index, hChoice, h⟩ := exists_ok_of_bind h
                split at h
                · next name this hIndex =>
                    cases h
                    exact .kind ⟨index, name, hChoice, hIndex⟩
                · cases h
            · next hKind =>
                obtain rfl := hKey.resolve_left hKind
                obtain ⟨_, hCheck, h⟩ := exists_ok_of_bind h
                cases h
                exact .content hCheck
        | kind this =>
            simp only [Pairing.step] at h
            split at h
            · cases h
            · next hKind =>
                obtain rfl := hKey.resolve_left hKind
                obtain ⟨a, hContent, rfl⟩ := exists_ok_of_map h
                exact .contentOf hContent
        | content waiting =>
            simp only [Pairing.step] at h
            split at h
            · cases h
            · next hContent =>
                obtain rfl := hKey.resolve_right hContent
                obtain ⟨index, hChoice, h⟩ := exists_ok_of_bind h
                split at h
                · next name this hIndex =>
                    obtain ⟨a, hWaiting, rfl⟩ := exists_ok_of_map h
                    exact .kindOf ⟨index, name, hChoice, hIndex⟩ hWaiting
                · cases h
        | both a => cases h
    · next hKey =>
        obtain ⟨_, hSkip, rfl⟩ := exists_ok_of_map h
        exact .skip (fun hKind => hKey (.inl hKind)) (fun hContent => hKey (.inr hContent)) hSkip
  · rintro (⟨index, name, hChoice, hIndex⟩ | hCheck | hContent |
      ⟨⟨index, name, hChoice, hIndex⟩, hWaiting⟩ | ⟨hKind, hContent, hSkip⟩)
    · simp [pairStep, Pairing.step, hChoice, hIndex, bind, Except.bind, pure, Except.pure]
    · simp [pairStep, Pairing.step, contentKey, kindKey, hCheck, bind, Except.bind, pure,
        Except.pure]
    · simp [pairStep, Pairing.step, contentKey, kindKey, hContent, Except.map]
    · simp [pairStep, Pairing.step, contentKey, kindKey, hChoice, hIndex, hWaiting, bind,
        Except.bind, Except.map]
    · simp [pairStep, hKind, hContent, hSkip, Except.map]

/-- A member that is neither tag nor content does not matter. -/
theorem pairStep_skip (hKind : key ≠ kindKey) (hContent : key ≠ contentKey)
    (h : checkSkip value = .ok ()) :
    pairStep cases place pairing key value = .ok pairing :=
  pairStep_iff.mpr (.skip hKind hContent h)

/-- The tag chooses the case. -/
theorem pairStep_kind_iff : pairStep cases place .nothing kindKey value = .ok next ↔
    ∃ this, Chosen cases place value this ∧ next = .kind this := by
  refine ⟨fun h => ?_, ?_⟩
  · generalize hKey : kindKey = key at h
    cases pairStep_iff.mp h with
    | kind hChosen => exact ⟨_, hChosen, rfl⟩
    | content => exact absurd hKey (by decide)
    | skip hKind => exact absurd hKey.symm hKind
  · rintro ⟨this, hChosen, rfl⟩
    exact pairStep_iff.mpr (.kind hChosen)

/-- A content behind its tag is decoded at once. -/
theorem pairStep_content (place : Place) {this : Case α} :
    pairStep cases place (.kind this) contentKey value = (this.decode place value).map .both := by
  simp [pairStep, Pairing.step, contentKey, kindKey]

end Pairs

section Cases

variable {cases : List (String × Case α)} {members : Json Fault .members}
  {items : Json Fault .items}

theorem paired_object_iff : paired cases place (.object members) = .ok a ↔
    ∃ inside, place.enter = .ok inside ∧ pairMembers cases inside members .nothing = .ok a := by
  unfold paired
  cases hEnter : place.enter <;> simp [bind, Except.bind]

/-- A tag beside a content in an array are its two items. -/
theorem paired_array_iff : paired cases place (.array items) = .ok a ↔
    ∃ kind content inside index name this, items = .item kind (.item content .noItems) ∧
      place.enter = .ok inside ∧ Decode.tag (cases.map (·.1)) inside kind = .ok index ∧
      cases[index]? = some (name, this) ∧ this.decode inside content = .ok a := by
  refine ⟨fun h => ?_, ?_⟩
  · obtain ⟨inside, hEnter, hInside⟩ := exists_ok_of_bind h
    cases items with
    | item kind rest =>
        obtain ⟨index, hTag, hBehind⟩ := exists_ok_of_bind hInside
        clear hInside h
        split at hBehind
        · next name this content rest hIndex =>
            obtain ⟨value, hContent, hEnd⟩ := exists_ok_of_bind hBehind
            split at hEnd
            · cases hEnd
              exact ⟨kind, content, inside, index, name, this, rfl, hEnter, hTag, hIndex, hContent⟩
            · cases hEnd
            · split at hEnd <;> cases hEnd
        · cases hBehind
        · cases hBehind
    | _ => cases hInside
  · rintro ⟨kind, content, inside, index, name, this, rfl, hEnter, hTag, hIndex, hContent⟩
    simp only [paired, hEnter, hTag, hIndex, bind, Except.bind, hContent]
    rfl

end Cases

end SetupLint.Json
