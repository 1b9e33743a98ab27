import SetupLint.Proofs.PhraseMatch

/-! Members that a node has no use for. A tree is extended, as a decoder sees it, if an object that
stands for a record or a variant has got one more member, under a key that is not used there, with
a text, a truth value or `null`. The decoder reads the extended tree as the same value. Since
members may change places, it is enough to say this of the first member of an object. -/
namespace SetupLint

open Json (Case Decoder Fault Place Reading RecordField RecordFields Schema)

namespace Json

/-- A value without parts that is no number. -/
inductive Simple : Reading → Prop where
  | text (s : String) : Simple (.text s)
  | bool (b : Bool) : Simple (.bool b)
  | null : Simple .null

theorem Simple.wholeDefect {value : Reading} (h : Simple value) (room : Nat) :
    Json.wholeDefect room value = none := by
  cases h <;> rfl

theorem Simple.checkSkip {value : Reading} (h : Simple value) : Json.checkSkip value = .ok () := by
  cases h <;> rfl

/-- Items behind others. -/
def behind (before : List Reading) (rest : Json Fault .items) : Json Fault .items :=
  before.foldr .item rest

/-- A field stands behind others, which have these names. -/
inductive RecordFields.Has {α : Type} (field : RecordField α) :
    {αs : List Type} → RecordFields αs → (before : List String) → Prop where
  | first {αs : List Type} (rest : RecordFields αs) : Has field (.cons field rest) []
  | later {β : Type} {αs : List Type} {rest : RecordFields αs} {before : List String}
      (other : RecordField β) (h : Has field rest before) :
      Has field (.cons other rest) (other.name :: before)

universe u

/-- Wherever a tag is read, it is the tag of this alternative. -/
def Picks {γ : Type u} (decode : Decoder Nat) (alternatives : List (String × γ)) (tag : Reading)
    (chosen : γ) : Prop :=
  ∀ place index, decode place tag = .ok index → ∃ name, alternatives[index]? = some (name, chosen)

/-- A tag picks one alternative only. -/
theorem Picks.eq {γ : Type u} {decode : Decoder Nat} {alternatives : List (String × γ)}
    {tag : Reading} {chosen other : γ} (h : Picks decode alternatives tag chosen) {place : Place}
    {index : Nat} (hTag : decode place tag = .ok index) {name : String}
    (hIndex : alternatives[index]? = some (name, other)) : other = chosen := by
  obtain ⟨name', hChosen⟩ := h place index hTag
  rw [hIndex] at hChosen
  cases hChosen
  rfl

/-! Values in their places. -/

/-- The last items decide whether items behind others can be read. -/
theorem behind_wholeDefect {before : List Reading} {rest rest' : Json Fault .items}
    {room : Nat} (h : wholeDefect room rest = none → wholeDefect room rest' = none)
    (hNone : wholeDefect room (behind before rest) = none) :
    wholeDefect room (behind before rest') = none := by
  induction before with
  | nil => exact h hNone
  | cons first before ih => simp_all [behind, wholeDefect]

/-- The last items decide how items behind others are decoded. -/
theorem behind_items {α : Type} {decode : Reading → Except DecodeError α} {before : List Reading}
    {rest rest' : Json Fault .items}
    (h : ∀ as, Decode.items decode rest = .ok as → Decode.items decode rest' = .ok as)
    {as : List α} (hItems : Decode.items decode (behind before rest) = .ok as) :
    Decode.items decode (behind before rest') = .ok as := by
  induction before generalizing as with
  | nil => exact h as hItems
  | cons first before ih =>
      change Decode.items decode (.item first (behind before rest)) = _ at hItems
      change Decode.items decode (.item first (behind before rest')) = _
      rw [Decode.items] at hItems ⊢
      split at hItems
      · cases hItems
      · obtain ⟨others, hOthers, rfl⟩ := exists_ok_of_map hItems
        rw [ih hOthers]
        rfl

namespace RecordFields.Has

variable {α : Type} {field : RecordField α} {αs : List Type} {fields : RecordFields αs}
  {before : List String} {place : Place} {value value' : Reading}

theorem mem_names (hField : fields.Has field before) : field.name ∈ fields.names := by
  induction hField with
  | first rest => exact List.mem_cons_self
  | later other _ ih => exact List.mem_cons_of_mem _ ih

/-- A field is filled from each value that it is read from as the same. -/
theorem put (hField : fields.Has field before) (hName : field.name ∉ before)
    (h : ∀ a, field.decode place value = .ok a → field.decode place value' = .ok a)
    {slots next : Slots αs} (hPut : fields.put place field.name value slots = some (.ok next)) :
    fields.put place field.name value' slots = some (.ok next) := by
  induction hField with
  | first rest =>
      obtain ⟨slot, slots⟩ := slots
      rw [put_cons_iff] at hPut ⊢
      rcases hPut with ⟨hSame, hSlot, a, hDecode, hNext⟩ | ⟨hOther, -⟩
      · exact .inl ⟨hSame, hSlot, a, h a hDecode, hNext⟩
      · exact absurd rfl hOther
  | later other _ ih =>
      obtain ⟨slot, slots⟩ := slots
      rw [List.mem_cons, not_or] at hName
      rw [put_cons_iff] at hPut ⊢
      rcases hPut with ⟨hSame, -⟩ | ⟨hOther, others, hRest, hNext⟩
      · exact absurd hSame.symm hName.1
      · exact .inr ⟨hOther, others, ih hName.2 hRest, hNext⟩

/-- A field of a record in the form of an array is read from the item in its place. -/
theorem ofItems (hField : fields.Has field before)
    (h : ∀ a, field.decode place value = .ok a → field.decode place value' = .ok a)
    {first : List Reading} (hPlace : first.length = before.length) {rest : Json Fault .items}
    {index : Nat} {values : Values αs}
    (hItems : fields.ofItems place index (behind first (.item value rest)) = .ok values) :
    fields.ofItems place index (behind first (.item value' rest)) = .ok values := by
  induction hField generalizing first index with
  | first others =>
      obtain rfl := List.length_eq_zero_iff.mp hPlace
      simp only [behind, List.foldr_nil, RecordFields.ofItems] at hItems ⊢
      split at hItems
      · cases hItems
      · next a hDecode =>
          rw [h a hDecode]
          exact hItems
  | later other _ ih =>
      cases first with
      | nil => cases hPlace
      | cons item first =>
          change RecordFields.ofItems place index _ (.item item (behind first _)) = _ at hItems ⊢
          rw [RecordFields.ofItems] at hItems ⊢
          split at hItems
          · cases hItems
          · obtain ⟨values, hRest, rfl⟩ := exists_ok_of_map hItems
            rw [ih (Nat.succ.inj hPlace) hRest]
            rfl

end RecordFields.Has

/-- A record is made only of members whose keys can all be read. -/
theorem isKeyed_of_ofMembers {α : Type} {schema : Schema α} {place : Place}
    {members : Json Fault .members} {a : α} (h : schema.ofMembers place members = .ok a) :
    members.isKeyed = true := by
  obtain ⟨values, hValues, -⟩ := exists_ok_of_map h
  obtain ⟨slots, hFold, -⟩ := RecordFields.ofMembers_iff.mp hValues
  exact isKeyed_of_fold hFold

/-! Records and variants that are read the same. -/

section Same

variable {α : Type} {schema : Schema α} {place inside : Place} {a : α}

/-- A record is read the same from members that fill the same slots. -/
theorem decode_of_fold {members members' : Json Fault .members}
    (h : ∀ inside slots,
      foldMembers (schema.fields.step inside) members schema.fields.empty = .ok slots →
      foldMembers (schema.fields.step inside) members' schema.fields.empty = .ok slots)
    (hDecode : schema.decode place (.object members) = .ok a) :
    schema.decode place (.object members') = .ok a := by
  obtain ⟨inside, hEnter, hFields⟩ := decode_object_iff.mp hDecode
  obtain ⟨values, hValues, rfl⟩ := exists_ok_of_map hFields
  obtain ⟨slots, hFold, hClose⟩ := RecordFields.ofMembers_iff.mp hValues
  refine decode_object_iff.mpr ⟨inside, hEnter, ?_⟩
  rw [Schema.ofMembers, RecordFields.ofMembers_iff.mpr ⟨slots, h inside slots hFold, hClose⟩]
  rfl

/-- A variant is decoded from a held object like a record of its own. -/
theorem ofMembers_held {members members' : Json Fault .members}
    (h : ∀ {place a}, schema.decode place (.object members) = .ok a →
      schema.decode place (.object members') = .ok a)
    (hEnter : place.enter = .ok inside) (hFields : schema.ofMembers inside.hold members = .ok a) :
    schema.ofMembers inside.hold members' = .ok a := by
  have hRecord := h (decode_object_iff.mpr ⟨inside.hold, enter_hold hEnter, hFields⟩)
  obtain ⟨held, hHeld, hFields'⟩ := decode_object_iff.mp hRecord
  obtain rfl : inside.hold = held := Except.ok.inj ((enter_hold hEnter).symm.trans hHeld)
  exact hFields'

/-- In a held tree a record in an array is read as its items are. -/
theorem ofItems_held {items items' : Json Fault .items}
    (h : ∀ {place a}, schema.decode place (.array items) = .ok a →
      schema.decode place (.array items') = .ok a)
    (hEnter : place.enter = .ok inside) (hFields : schema.ofItems inside.hold items = .ok a) :
    schema.ofItems inside.hold items' = .ok a := by
  have hRecord := h (decode_array_iff.mpr ⟨inside.hold, enter_hold hEnter, hFields⟩)
  obtain ⟨held, hHeld, hFields'⟩ := decode_array_iff.mp hRecord
  obtain rfl : inside.hold = held := Except.ok.inj ((enter_hold hEnter).symm.trans hHeld)
  exact hFields'

end Same

end Json

/-- A tree with one more member in a node, as a decoder sees it. -/
inductive Extended : {α : Type} → Decoder α → Reading → Reading → Prop where
  /-- A record with a member that is no field. -/
  | recordMember {α : Type} {schema : Schema α} {key : String} {value : Reading}
      {members : Json Fault .members} (hKey : key ∉ schema.fields.names)
      (hValue : Json.Simple value) :
      Extended schema.decode (.object members) (.object (.member key value members))
  /-- A record with an extended field. -/
  | recordField {α β : Type} {schema : Schema α} {field : RecordField β} {before : List String}
      {value value' : Reading} (rest : Json Fault .members)
      (hField : schema.fields.Has field before) (hName : field.name ∉ before)
      (h : Extended field.decode value value') :
      Extended schema.decode (.object (.member field.name value rest))
        (.object (.member field.name value' rest))
  /-- A record in the form of an array, with an extended field. -/
  | recordItem {α β : Type} {schema : Schema α} {field : RecordField β} {names : List String}
      {before : List Reading} {value value' : Reading} (rest : Json Fault .items)
      (hField : schema.fields.Has field names) (hPlace : before.length = names.length)
      (h : Extended field.decode value value') :
      Extended schema.decode (.array (Json.behind before (.item value rest)))
        (.array (Json.behind before (.item value' rest)))
  /-- A variant that is extended beside its tag. -/
  | variant {α : Type} {variants : List (String × Schema α)} {schema : Schema α} {tag : Reading}
      {members members' : Json Fault .members}
      (hPicks : Json.Picks (Json.Decode.tag (variants.map (·.1))) variants tag schema)
      (hTag : Json.tagKey ∉ members'.keys)
      (h : Extended schema.decode (.object members) (.object members')) :
      Extended (Json.tagged variants) (.object (.member Json.tagKey tag members))
        (.object (.member Json.tagKey tag members'))
  /-- A variant in the form of an array that is extended behind its tag. -/
  | variantItems {α : Type} {variants : List (String × Schema α)} {schema : Schema α}
      {tag : Reading} {items items' : Json Fault .items}
      (hPicks : Json.Picks (Json.Decode.tag (variants.map (·.1))) variants tag schema)
      (h : Extended schema.decode (.array items) (.array items')) :
      Extended (Json.tagged variants) (.array (.item tag items)) (.array (.item tag items'))
  /-- A tag and a content beside a member that is neither. -/
  | caseMember {α : Type} {cases : List (String × Case α)} {key : String} {value : Reading}
      {members : Json Fault .members} (hKind : key ≠ Json.kindKey)
      (hContent : key ≠ Json.contentKey) (hValue : Json.Simple value) :
      Extended (Json.paired cases) (.object members) (.object (.member key value members))
  /-- A tag beside an extended content. -/
  | caseContent {α : Type} {cases : List (String × Case α)} {decode : Decoder α}
      {kind content content' : Reading} (rest : Json Fault .members)
      (hPicks : Json.Picks (Json.Decode.choice (cases.map (·.1))) cases kind (.holding decode))
      (h : Extended decode content content') :
      Extended (Json.paired cases)
        (.object (.member Json.kindKey kind (.member Json.contentKey content rest)))
        (.object (.member Json.kindKey kind (.member Json.contentKey content' rest)))
  /-- A tag before an extended content, in the form of an array. -/
  | caseItem {α : Type} {cases : List (String × Case α)} {decode : Decoder α}
      {kind content content' : Reading} (rest : Json Fault .items)
      (hPicks : Json.Picks (Json.Decode.tag (cases.map (·.1))) cases kind (.holding decode))
      (h : Extended decode content content') :
      Extended (Json.paired cases) (.array (.item kind (.item content rest)))
        (.array (.item kind (.item content' rest)))
  | list {α : Type} {decode : Decoder α} (before : List Reading) {value value' : Reading}
      (rest : Json Fault .items) (h : Extended decode value value') :
      Extended (Json.Decode.list decode) (.array (Json.behind before (.item value rest)))
        (.array (Json.behind before (.item value' rest)))
  | nullable {α : Type} {decode : Decoder α} {value value' : Reading}
      (h : Extended decode value value') : Extended (Json.Decode.nullable decode) value value'
  | map {α β : Type} {decode : Decoder α} (f : α → β) {value value' : Reading}
      (h : Extended decode value value') :
      Extended (fun place reading => (decode place reading).map f) value value'
  | type {value value' : Reading}
      (h : Extended (TypeRef.schema (Json.Decode.list TypeRef.decode)).decode value value') :
      Extended TypeRef.decode value value'
  | phrase {c : Category} {value value' : Reading} (hNode : c.item.isNode)
      (h : Extended (PhraseDecoder.step Phrase.decode c) value value') :
      Extended (Phrase.decode c) value value'

namespace Extended

variable {α : Type} {decode : Decoder α} {reading reading' : Reading}

/-- A node is no `null`. -/
theorem ne_null (h : Extended decode reading reading') : reading ≠ .null ∧ reading' ≠ .null := by
  induction h with
  | nullable _ ih => exact ih
  | map _ _ ih => exact ih
  | type _ ih => exact ih
  | phrase _ _ ih => exact ih
  | _ => exact ⟨nofun, nofun⟩

open Json (wholeDefect_object wholeDefect_array wholeDefect_member wholeDefect_item
  behind_wholeDefect)

/-- What is read as a whole still is. -/
theorem wholeDefect (h : Extended decode reading reading') (room : Nat)
    (hNone : Json.wholeDefect room reading = none) : Json.wholeDefect room reading' = none := by
  induction h generalizing room with
  | recordMember hKey hValue =>
      obtain ⟨inside, rfl, hMembers⟩ := wholeDefect_object.mp hNone
      exact wholeDefect_member.mpr ⟨hValue.wholeDefect inside, hMembers⟩
  | caseMember hKind hContent hValue =>
      obtain ⟨inside, rfl, hMembers⟩ := wholeDefect_object.mp hNone
      exact wholeDefect_member.mpr ⟨hValue.wholeDefect inside, hMembers⟩
  | recordField rest hField hName _ ih =>
      obtain ⟨inside, rfl, hMembers⟩ := wholeDefect_object.mp hNone
      exact wholeDefect_member.mpr ((wholeDefect_member.mp hMembers).imp_left (ih inside))
  | variant hPicks hTag _ ih =>
      obtain ⟨inside, rfl, hMembers⟩ := wholeDefect_object.mp hNone
      exact wholeDefect_member.mpr ((wholeDefect_member.mp hMembers).imp_right (ih (inside + 1)))
  | variantItems hPicks _ ih =>
      obtain ⟨inside, rfl, hItems⟩ := wholeDefect_array.mp hNone
      obtain ⟨hTag, hRest⟩ := wholeDefect_item.mp hItems
      exact wholeDefect_item.mpr ⟨hTag, ih (inside + 1) hRest⟩
  | caseContent rest hPicks _ ih =>
      obtain ⟨inside, rfl, hMembers⟩ := wholeDefect_object.mp hNone
      obtain ⟨hKind, hBeside⟩ := wholeDefect_member.mp hMembers
      obtain ⟨hContent, hRest⟩ := wholeDefect_member.mp hBeside
      exact wholeDefect_member.mpr ⟨hKind, wholeDefect_member.mpr ⟨ih inside hContent, hRest⟩⟩
  | caseItem rest hPicks _ ih =>
      obtain ⟨inside, rfl, hItems⟩ := wholeDefect_array.mp hNone
      obtain ⟨hKind, hBehind⟩ := wholeDefect_item.mp hItems
      obtain ⟨hContent, hRest⟩ := wholeDefect_item.mp hBehind
      exact wholeDefect_item.mpr ⟨hKind, wholeDefect_item.mpr ⟨ih inside hContent, hRest⟩⟩
  | recordItem rest hField hPlace _ ih =>
      obtain ⟨inside, rfl, hItems⟩ := wholeDefect_array.mp hNone
      refine behind_wholeDefect (fun h => ?_) hItems
      exact wholeDefect_item.mpr ((wholeDefect_item.mp h).imp_left (ih inside))
  | list before rest _ ih =>
      obtain ⟨inside, rfl, hItems⟩ := wholeDefect_array.mp hNone
      refine behind_wholeDefect (fun h => ?_) hItems
      exact wholeDefect_item.mpr ((wholeDefect_item.mp h).imp_left (ih inside))
  | nullable _ ih => exact ih room hNone
  | map _ _ ih => exact ih room hNone
  | type _ ih => exact ih room hNone
  | phrase _ _ ih => exact ih room hNone

/-- A tree with one more member can still be read as a whole. -/
theorem checkWhole_members {members members' : Json Fault .members} {place : Place}
    (h : Extended decode (.object members) (.object members'))
    (hCheck : Json.checkWhole place members = .ok ()) : Json.checkWhole place members' = .ok () :=
  Json.checkWhole_eq_ok.mpr <| (Json.checkWhole_eq_ok.mp hCheck).imp_right fun hNone =>
    h.wholeDefect (place.room + 1) hNone

theorem checkWhole_items {items items' : Json Fault .items} {place : Place}
    (h : Extended decode (.array items) (.array items'))
    (hCheck : Json.checkWhole place items = .ok ()) : Json.checkWhole place items' = .ok () :=
  Json.checkWhole_eq_ok.mpr <| (Json.checkWhole_eq_ok.mp hCheck).imp_right fun hNone =>
    h.wholeDefect (place.room + 1) hNone

/-- An extended tree is read as the same value. -/
theorem decode_eq (h : Extended decode reading reading') {place : Place} {a : α}
    (hDecode : decode place reading = .ok a) : decode place reading' = .ok a := by
  induction h generalizing place with
  | recordMember hKey hValue =>
      refine Json.decode_of_fold (fun inside slots hFold => ?_) hDecode
      rw [Json.foldMembers, RecordFields.step_iff.mpr (.inr ⟨hKey, hValue.checkSkip, rfl⟩)]
      exact hFold
  | recordField rest hField hName _ ih =>
      refine Json.decode_of_fold (fun inside slots hFold => ?_) hDecode
      obtain ⟨next, hStep, hRest⟩ := exists_ok_of_bind hFold
      have hPut := (RecordFields.step_iff.mp hStep).resolve_right fun hSkipped =>
        hSkipped.1 hField.mem_names
      have hPut' := hField.put hName (fun b => ih) hPut
      rw [Json.foldMembers, RecordFields.step_iff.mpr (.inl hPut')]
      exact hRest
  | recordItem rest hField hPlace _ ih =>
      obtain ⟨inside, hEnter, hFields⟩ := Json.decode_array_iff.mp hDecode
      obtain ⟨values, hItems, rfl⟩ := exists_ok_of_map hFields
      refine Json.decode_array_iff.mpr ⟨inside, hEnter, ?_⟩
      rw [Schema.ofItems, hField.ofItems (fun b => ih) hPlace hItems]
      rfl
  | variant hPicks hTag h ih =>
      obtain ⟨inside, index, name, schema, hEnter, hFind, hIndex, hFields⟩ :=
        Json.tagged_object_iff.mp hDecode
      obtain ⟨hFirst, hOther, -, hCheck⟩ := Json.findTag_first_iff.mp hFind
      obtain rfl := hPicks.eq hFirst hIndex
      rw [Json.untagged_first hOther] at hFields
      have hFields' := Json.ofMembers_held ih hEnter hFields
      have hFind' := Json.findTag_first_iff.mpr
        ⟨hFirst, hTag, Json.isKeyed_of_ofMembers hFields', h.checkWhole_members hCheck⟩
      rw [← Json.untagged_first hTag] at hFields'
      exact Json.tagged_object_iff.mpr
        ⟨inside, index, name, schema, hEnter, hFind', hIndex, hFields'⟩
  | variantItems hPicks h ih =>
      obtain ⟨_, _, inside, index, name, schema, hItems, hEnter, hTag, hCheck, hIndex, hFields⟩ :=
        Json.tagged_array_iff.mp hDecode
      cases hItems
      obtain rfl := hPicks.eq hTag hIndex
      have hFields' := Json.ofItems_held ih hEnter hFields
      exact Json.tagged_array_iff.mpr ⟨_, _, inside, index, name, schema, rfl, hEnter, hTag,
        h.checkWhole_items hCheck, hIndex, hFields'⟩
  | caseMember hKind hContent hValue =>
      obtain ⟨inside, hEnter, hPair⟩ := Json.paired_object_iff.mp hDecode
      refine Json.paired_object_iff.mpr ⟨inside, hEnter, ?_⟩
      rw [Json.pairMembers_eq_fold] at hPair ⊢
      rw [Json.foldMembers, Json.pairStep_skip hKind hContent hValue.checkSkip]
      exact hPair
  | caseContent rest hPicks _ ih =>
      obtain ⟨inside, hEnter, hPair⟩ := Json.paired_object_iff.mp hDecode
      refine Json.paired_object_iff.mpr ⟨inside, hEnter, ?_⟩
      rw [Json.pairMembers_eq_fold] at hPair ⊢
      obtain ⟨pairing, hFold, hClose⟩ := exists_ok_of_bind hPair
      obtain ⟨first, hFirst, hBeside⟩ := exists_ok_of_bind hFold
      obtain ⟨second, hSecond, hRest⟩ := exists_ok_of_bind hBeside
      obtain ⟨this, ⟨index, name, hChoice, hIndex⟩, rfl⟩ := Json.pairStep_kind_iff.mp hFirst
      obtain rfl := hPicks.eq hChoice hIndex
      rw [Json.pairStep_content] at hSecond
      obtain ⟨b, hContent, rfl⟩ := exists_ok_of_map hSecond
      simp only [Json.foldMembers, hFirst, Json.pairStep_content, Case.decode, ih hContent, bind,
        Except.bind, Except.map, hRest]
      exact hClose
  | caseItem rest hPicks _ ih =>
      obtain ⟨_, _, inside, index, name, this, hItems, hEnter, hTag, hIndex, hContent⟩ :=
        Json.paired_array_iff.mp hDecode
      cases hItems
      obtain rfl := hPicks.eq hTag hIndex
      exact Json.paired_array_iff.mpr
        ⟨_, _, inside, index, name, _, rfl, hEnter, hTag, hIndex, ih hContent⟩
  | list before rest _ ih =>
      obtain ⟨items, inside, hItems, hEnter, hList⟩ := Json.list_iff.mp hDecode
      cases hItems
      refine Json.list_iff.mpr ⟨_, inside, rfl, hEnter, ?_⟩
      refine Json.behind_items (fun as hRest => ?_) hList
      rw [Json.Decode.items] at hRest ⊢
      split at hRest
      · cases hRest
      · next b hFirst =>
          rw [ih hFirst]
          exact hRest
  | nullable h ih =>
      rw [Json.nullable_of_ne_null _ _ h.ne_null.1] at hDecode
      rw [Json.nullable_of_ne_null _ _ h.ne_null.2]
      obtain ⟨b, hValue, rfl⟩ := exists_ok_of_map hDecode
      exact congrArg (Except.map some) (ih hValue)
  | map f _ ih =>
      obtain ⟨b, hValue, rfl⟩ := exists_ok_of_map hDecode
      exact congrArg (Except.map f) (ih hValue)
  | type _ ih => exact TypeRef.decode_iff_step.mpr (ih (TypeRef.decode_iff_step.mp hDecode))
  | phrase hNode _ ih =>
      exact (PhraseDecoder.decode_iff_step hNode).mpr
        (ih ((PhraseDecoder.decode_iff_step hNode).mp hDecode))

end Extended

end SetupLint
