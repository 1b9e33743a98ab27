import Mathlib.Data.List.Nodup
import SetupLint.Json.Record
import SetupLint.Proofs.JsonText

/-! Decoding what was encoded, for the parts of a codec: numbers, words, lists, records and
variants. A decoder is right about a document if it gives the value that was written wherever
the document still fits, and takes the text for malformed wherever it nests too deeply. How much
may still be opened is limited by a bound, because decoders of trees are built step by step. -/
namespace SetupLint

/-- A type whose words tell all its values apart. -/
class LawfulWorded (α : Type) [Worded α] : Prop where
  mem_all : ∀ a : α, a ∈ Worded.all
  nodup : ((Worded.all (α := α)).map Worded.word).Nodup

namespace Json

/-- The value `a`, if a document that is `depth` deep fits. -/
def fitting {α : Type} (depth room : Nat) (a : α) : Except DecodeError α :=
  if depth ≤ room then .ok a else .error .malformed

section Fitting

variable {α β : Type} {depth other room : Nat}

/-- A document that fits is read. -/
theorem fitting_of_le (h : depth ≤ room) (a : α) : fitting depth room a = .ok a := if_pos h

/-- A document that does not fit is malformed. -/
theorem fitting_of_lt (h : room < depth) (a : α) : fitting depth room a = .error .malformed :=
  if_neg (Nat.not_le_of_lt h)

@[simp]
theorem map_fitting (f : α → β) (a : α) :
    (fitting depth room a).map f = fitting depth room (f a) := by
  unfold fitting
  split <;> rfl

/-- Of two documents the one that fits does not decide. -/
theorem fitting_max_of_le (h : depth ≤ room) (a : α) :
    fitting (max depth other) room a = fitting other room a := by
  have hIff : max depth other ≤ room ↔ other ≤ room := by omega
  simp [fitting, hIff]

/-- If one of two documents does not fit, then neither do both. -/
theorem fitting_max_of_lt (h : room < depth) (a : α) :
    fitting (max depth other) room a = .error .malformed :=
  fitting_of_lt (by omega) a

end Fitting

/-- A decoder reads a document as `a` wherever less than `bound` may still be opened. -/
structure Reads {α : Type} (bound : Nat) (decoder : Decoder α) (document : Document) (a : α) :
    Prop where
  exact : document.IsExact
  decode : ∀ place : Place, place.room < bound →
    decoder place document.asRead = fitting document.depth place.room a

/-- The first defect of a complete tree is that it nests too deeply. -/
theorem wholeDefect_asRead {p : Part} {tree : Json Empty p} (h : tree.IsExact) (room : Nat) :
    wholeDefect room tree.asRead = if tree.depth ≤ room then none else some .malformed := by
  induction tree generalizing room with
  | null => simp [asRead, wholeDefect, depth]
  | bool b => simp [asRead, wholeDefect, depth]
  | number n =>
      obtain ⟨i, hLow, hHigh, rfl⟩ := h
      simp [asRead, wholeDefect, depth, Numeral.value?_ofInt hLow hHigh]
  | text s => simp [asRead, wholeDefect, depth]
  | array items ih =>
      cases room with
      | zero => simp [asRead, wholeDefect, depth]
      | succ room => simp [asRead, wholeDefect, depth, ih h room]
  | object members ih =>
      cases room with
      | zero => simp [asRead, wholeDefect, depth]
      | succ room => simp [asRead, wholeDefect, depth, ih h room]
  | noItems => simp [asRead, wholeDefect, depth]
  | item value rest ihValue ihRest =>
      have hDepth : max value.depth rest.depth ≤ room ↔ value.depth ≤ room ∧ rest.depth ≤ room := by
        omega
      by_cases hValue : value.depth ≤ room <;>
        simp [asRead, wholeDefect, depth, ihValue h.1 room, ihRest h.2 room, hDepth, hValue]
  | noMembers => simp [asRead, wholeDefect, depth]
  | member key value rest ihValue ihRest =>
      have hDepth : max value.depth rest.depth ≤ room ↔ value.depth ≤ room ∧ rest.depth ≤ room := by
        omega
      by_cases hValue : value.depth ≤ room <;>
        simp [asRead, wholeDefect, depth, ihValue h.1 room, ihRest h.2 room, hDepth, hValue]
  | unkeyed why => cases why
  | fault why => cases why

/-- Reading a complete tree as a whole fails only where it does not fit. -/
theorem checkWhole_asRead {p : Part} {tree : Json Empty p} (h : tree.IsExact) (place : Place) :
    checkWhole place tree.asRead =
      if place.held then .ok () else fitting tree.depth place.room () := by
  unfold checkWhole
  rw [wholeDefect_asRead h]
  unfold fitting
  cases place.held <;> simp
  split <;> rfl

universe u

section Leaves

variable (bound : Nat)

theorem reads_text (s : String) : Reads bound Decode.text (.text s) s where
  exact := trivial
  decode _ _ := (fitting_of_le (Nat.zero_le _) s).symm

theorem reads_bool (b : Bool) : Reads bound Decode.bool (.bool b) b where
  exact := trivial
  decode _ _ := (fitting_of_le (Nat.zero_le _) b).symm

/-- A whole number reads back if it is in range for the decoder and for 64 bits. -/
theorem reads_int {i low high : Int} (hLow : -twoPower 63 ≤ low)
    (hHigh : high ≤ Numeral.maxSignificand) (h : low ≤ i ∧ i ≤ high) :
    Reads bound (Decode.int low high) (Json.int i) i where
  exact := ⟨i, by omega, by omega, rfl⟩
  decode place _ := by
    have hValue : (Numeral.ofInt i).value? = some (.int i) :=
      Numeral.value?_ofInt (by omega) (by omega)
    simp [Json.int, asRead, Decode.int, hValue, h, depth, fitting]

variable {bound} in
/-- What reads back may be made into something else. -/
theorem Reads.map {α β : Type} {decoder : Decoder α} {document : Document} {a : α}
    (h : Reads bound decoder document a) (f : α → β) :
    Reads bound (fun place reading => (decoder place reading).map f) document (f a) where
  exact := h.exact
  decode place hRoom := by rw [h.decode place hRoom, map_fitting]

theorem reads_uint32 (n : UInt32) : Reads bound Decode.uint32 (Json.int n.toNat) n := by
  have hRange : n.toNat < 2 ^ 32 := n.toNat_lt
  have hInt : Reads bound (Decode.int 0 0xFFFFFFFF) (Json.int n.toNat) n.toNat :=
    reads_int bound (by decide) (by decide) (by omega)
  have hBack : UInt32.ofNat (n.toNat : Int).toNat = n := by simp
  have hRead := hInt.map fun i => UInt32.ofNat i.toNat
  rw [hBack] at hRead
  exact hRead

theorem reads_int64 (n : Int64) : Reads bound Decode.int64 (Json.int n.toInt) n := by
  have hInt : Reads bound (Decode.int Int64.minValue.toInt Int64.maxValue.toInt)
      (Json.int n.toInt) n.toInt :=
    reads_int bound (by decide) (by decide) ⟨n.minValue_le_toInt, n.toInt_le⟩
  have hRead := hInt.map Int64.ofInt
  rw [Int64.ofInt_toInt] at hRead
  exact hRead

theorem variant_eq {names : List String} {name : String} (h : name ∈ names) :
    Decode.variant names name = .ok (names.idxOf name) := if_pos h

/-- The word of a value is read as the value. -/
theorem reads_word {α : Type} [Worded α] [LawfulWorded α] (a : α) :
    Reads bound Worded.decode (Worded.encode a) a where
  exact := trivial
  decode place _ := by
    have hMem : a ∈ Worded.all := LawfulWorded.mem_all a
    have hWord : Worded.word a ∈ (Worded.all (α := α)).map Worded.word := List.mem_map_of_mem hMem
    have hIndex : (Worded.all (α := α))[((Worded.all (α := α)).map Worded.word).idxOf
        (Worded.word a)]? = some a := by
      have hAt := List.getElem?_idxOf hWord
      rw [List.getElem?_map, Option.map_eq_some_iff] at hAt
      obtain ⟨b, hb, hSame⟩ := hAt
      rw [hb, List.inj_on_of_nodup_map LawfulWorded.nodup (List.mem_of_getElem? hb) hMem hSame]
    simp [Worded.decode, Worded.encode, asRead, Decode.choice, variant_eq hWord, hIndex, depth,
      fitting, bind, Except.bind]

end Leaves

section Items

variable {bound : Nat} {α : Type} {decoder : Decoder α}

/-- What reads back below a bound reads back below any lower one. -/
theorem Reads.mono {other : Nat} {document : Document} {a : α} (h : Reads bound decoder document a)
    (hBound : other ≤ bound) : Reads other decoder document a where
  exact := h.exact
  decode place hRoom := h.decode place (by omega)

/-- A value that is not written as `null` may also be written as nothing. -/
theorem Reads.nullable {document : Document} {a : α} (h : Reads bound decoder document a)
    (hNull : document ≠ .null) : Reads bound (Decode.nullable decoder) document (some a) where
  exact := h.exact
  decode place hRoom := by
    have hRead := (h.map some).decode place hRoom
    cases document with
    | null => exact absurd rfl hNull
    | fault why => cases why
    | _ => exact hRead

/-- Decoding inside an array or object that is opened first. -/
theorem reads_enter {tree : Document} {depth : Nat} {a : α} (hExact : tree.IsExact)
    (hDepth : tree.depth = depth + 1) {inside : Place → Except DecodeError α}
    (hDecoder : ∀ place, decoder place tree.asRead =
      match place.enter with
      | .error e => .error e
      | .ok place => inside place)
    (hInside : ∀ place : Place, place.room < bound → inside place = fitting depth place.room a) :
    Reads (bound + 1) decoder tree a where
  exact := hExact
  decode place hRoom := by
    obtain ⟨room, held⟩ := place
    rw [hDecoder, hDepth]
    cases room with
    | zero => rfl
    | succ room =>
        have hRead := hInside ⟨room, held⟩ (Nat.lt_of_succ_lt_succ hRoom)
        simpa [Place.enter, fitting] using hRead

variable {encode : α → Document} {values : List α}

/-- The items of an array. -/
theorem reads_items (h : ∀ a ∈ values, Reads bound decoder (encode a) a) :
    let items := (values.map encode).foldr .item (.noItems : Json Empty .items)
    items.IsExact ∧ ∀ place : Place, place.room < bound →
      Decode.items (decoder place) items.asRead = fitting items.depth place.room values := by
  induction values with
  | nil => exact ⟨trivial, fun place _ => (fitting_of_le (Nat.zero_le _) _).symm⟩
  | cons a values ih =>
      have hHead : Reads bound decoder (encode a) a := h a List.mem_cons_self
      obtain ⟨hExact, hTail⟩ := ih fun b hb => h b (List.mem_cons_of_mem a hb)
      refine ⟨⟨hHead.exact, hExact⟩, fun place hRoom => ?_⟩
      simp only [List.map_cons, List.foldr_cons, asRead, Decode.items, depth,
        hHead.decode place hRoom]
      by_cases hDepth : (encode a).depth ≤ place.room
      · rw [fitting_of_le hDepth, fitting_max_of_le hDepth, hTail place hRoom]
        exact map_fitting _ values
      · rw [fitting_of_lt (by omega), fitting_max_of_lt (by omega)]

/-- Values that are read one by one are read as a list. -/
theorem reads_list (h : ∀ a ∈ values, Reads bound decoder (encode a) a) :
    Reads (bound + 1) (Decode.list decoder) (Json.list (values.map encode)) values :=
  reads_enter (reads_items h).1 rfl (fun _ => rfl) (reads_items h).2

end Items

/-- Some members of an object. -/
def someMembers (members : List (String × Document)) : Json Empty .members :=
  members.foldr (fun (key, value) rest => .member key value rest) .noMembers

section Records

variable {bound : Nat} {α : Type} {αs : List Type}

/-- Members that write the value of a field: one with its name, or none for the value that
stands for its absence. -/
inductive RecordField.Writes (bound : Nat) (field : RecordField α) :
    List (String × Document) → α → Prop where
  | present {document : Document} {a : α} (h : Reads bound field.decode document a) :
      Writes bound field [(field.name, document)] a
  | absent {a : α} (h : field.absent = some a) : Writes bound field [] a

namespace RecordFields

def names : {αs : List Type} → RecordFields αs → List String
  | _, .nil => []
  | _, .cons field rest => field.name :: rest.names

/-- Members that write the values of some fields, in their order. -/
inductive Writes (bound : Nat) : {αs : List Type} → RecordFields αs → List (String × Document) →
    Values αs → Prop where
  | nil : Writes bound .nil [] ()
  | cons {α : Type} {αs : List Type} {field : RecordField α} {rest : RecordFields αs}
      {members others : List (String × Document)} {a : α} {values : Values αs}
      (h : field.Writes bound members a) (hRest : Writes bound rest others values) :
      Writes bound (.cons field rest) (members ++ others) (a, values)

variable {fields : RecordFields αs} {members : List (String × Document)} {values : Values αs}

/-- Members are written under the names of their fields. -/
theorem Writes.mem_names (h : Writes bound fields members values) :
    ∀ member ∈ members, member.1 ∈ fields.names := by
  induction h with
  | nil => simp
  | @cons _ _ field rest members others a values h _ ih =>
      intro member hMember
      rcases List.mem_append.mp hMember with hMember | hMember
      · cases h with
        | present h =>
            rw [List.mem_singleton.mp hMember]
            exact List.mem_cons_self
        | absent h => cases hMember
      · exact List.mem_cons_of_mem _ (ih member hMember)

/-- The numbers in members that are written are read exactly. -/
theorem Writes.isExact (h : Writes bound fields members values) :
    (someMembers members).IsExact := by
  induction h with
  | nil => trivial
  | cons h _ ih =>
      cases h with
      | present h => exact ⟨h.exact, ih⟩
      | absent h => exact ih

/-- Members that do not belong to a field leave its slot alone. -/
theorem putAll_cons {field : RecordField α} (fields : RecordFields αs) (place : Place)
    (slot : Option α) (slots : Slots αs) (h : ∀ member ∈ members, member.1 ≠ field.name) :
    (RecordFields.cons field fields).putAll place (someMembers members).asRead (slot, slots) =
      (fields.putAll place (someMembers members).asRead slots).map fun slots => (slot, slots) := by
  induction members generalizing slots with
  | nil => rfl
  | cons member members ih =>
      have hName : field.name ≠ member.1 := (h member List.mem_cons_self).symm
      have hRest := fun slots => ih slots fun other hOther =>
        h other (List.mem_cons_of_mem member hOther)
      simp only [someMembers, List.foldr_cons, asRead, putAll, put, hName, if_false]
      simp only [someMembers] at hRest
      cases hPut : fields.put place member.1 member.2.asRead slots with
      | none =>
          simp only [Option.map_none]
          cases checkSkip member.2.asRead with
          | ok => exact hRest slots
          | error e => rfl
      | some result =>
          cases result with
          | ok slots => exact hRest slots
          | error e => rfl

/-- The member of a field fills its slot. -/
theorem putAll_self {field : RecordField α} (fields : RecordFields αs) (place : Place)
    (slots : Slots αs) (document : Document) :
    (RecordFields.cons field fields).putAll place
        (someMembers ((field.name, document) :: members)).asRead (none, slots) =
      match field.decode place document.asRead with
      | .ok a => (RecordFields.cons field fields).putAll place (someMembers members).asRead
          (some a, slots)
      | .error e => .error e := by
  simp only [someMembers, List.foldr_cons, asRead, RecordFields.putAll, put, if_true]
  cases field.decode place document.asRead <;> rfl

/-- The members of a record fill the slots with its values. -/
theorem Writes.putAll (h : Writes bound fields members values) (hNames : fields.names.Nodup) :
    ∃ slots, fields.close slots = .ok values ∧ ∀ place : Place, place.room < bound →
      fields.putAll place (someMembers members).asRead fields.empty =
        fitting (someMembers members).depth place.room slots := by
  induction h with
  | nil => exact ⟨(), rfl, fun place _ => (fitting_of_le (Nat.zero_le _) _).symm⟩
  | @cons _ _ field rest members others a values h hRest ih =>
      obtain ⟨hField, hNames⟩ := List.nodup_cons.mp hNames
      obtain ⟨slots, hClose, hPut⟩ := ih hNames
      have hOthers : ∀ member ∈ others, member.1 ≠ field.name := fun member hMember hName =>
        hField (hName ▸ hRest.mem_names member hMember)
      cases h with
      | @present document _ h =>
          refine ⟨(some a, slots), by simp [close, hClose, Except.map], fun place hRoom => ?_⟩
          have hAll := putAll_cons rest place (some a) rest.empty hOthers
          rw [hPut place hRoom, map_fitting] at hAll
          rw [List.singleton_append, empty, putAll_self, h.decode place hRoom]
          by_cases hDepth : document.depth ≤ place.room
          · rw [fitting_of_le hDepth]
            exact hAll.trans (fitting_max_of_le hDepth _).symm
          · rw [fitting_of_lt (by omega)]
            exact (fitting_max_of_lt (by omega) _).symm
      | absent h =>
          refine ⟨(none, slots), by simp [close, hClose, h, Except.map], fun place hRoom => ?_⟩
          have hAll := putAll_cons rest place none rest.empty hOthers
          rw [hPut place hRoom, map_fitting] at hAll
          exact hAll

/-- Members that write the values of a record are read as these values. -/
theorem Writes.ofMembers (h : Writes bound fields members values) (hNames : fields.names.Nodup)
    (place : Place) (hRoom : place.room < bound) :
    fields.ofMembers place (someMembers members).asRead =
      fitting (someMembers members).depth place.room values := by
  obtain ⟨slots, hClose, hPut⟩ := h.putAll hNames
  rw [RecordFields.ofMembers, hPut place hRoom]
  by_cases hDepth : (someMembers members).depth ≤ place.room
  · simp [fitting_of_le hDepth, hClose]
  · simp [fitting_of_lt (show place.room < (someMembers members).depth by omega)]

end RecordFields

namespace Schema

variable {schema : Schema α} {members : List (String × Document)} {a : α}

/-- Members that write a record. -/
def Writes (bound : Nat) (schema : Schema α) (members : List (String × Document)) (a : α) : Prop :=
  ∃ values, schema.fields.Writes bound members values ∧ schema.make values = a

theorem Writes.ofMembers (h : schema.Writes bound members a) (hNames : schema.fields.names.Nodup)
    (place : Place) (hRoom : place.room < bound) :
    schema.ofMembers place (someMembers members).asRead =
      fitting (someMembers members).depth place.room a := by
  obtain ⟨values, hWrites, rfl⟩ := h
  rw [Schema.ofMembers, hWrites.ofMembers hNames place hRoom, map_fitting]

theorem Writes.isExact (h : schema.Writes bound members a) : (someMembers members).IsExact := by
  obtain ⟨values, hWrites, -⟩ := h
  exact hWrites.isExact

theorem Writes.mem_names (h : schema.Writes bound members a) :
    ∀ member ∈ members, member.1 ∈ schema.fields.names := by
  obtain ⟨values, hWrites, -⟩ := h
  exact hWrites.mem_names

/-- A record is read from its members. -/
theorem Writes.reads (h : schema.Writes bound members a) (hNames : schema.fields.names.Nodup) :
    Reads (bound + 1) schema.decode (.object (someMembers members)) a :=
  reads_enter h.isExact rfl (fun _ => rfl) (h.ofMembers hNames)

end Schema

/-- The place of the first variant or case with a name. -/
theorem variant_of_lookup {β : Type u} {variants : List (String × β)} {tag : String} {value : β}
    (h : variants.lookup tag = some value) :
    ∃ index, Decode.variant (variants.map (·.1)) tag = .ok index ∧
      variants[index]? = some (tag, value) := by
  obtain ⟨before, after, rfl, hBefore⟩ := List.lookup_eq_some_iff.mp h
  have hNew : tag ∉ before.map (·.1) := by
    intro hMem
    obtain ⟨variant, hVariant, hTag⟩ := List.mem_map.mp hMem
    have hNot := hBefore variant hVariant
    simp [hTag] at hNot
  refine ⟨before.length, ?_, by simp⟩
  rw [variant_eq (by simp)]
  simp [List.idxOf_append, hNew]

section Tagged

variable {variants : List (String × Schema α)} {tag : String} {schema : Schema α}
  {members : List (String × Document)} {a : α}

/-- Members that are not the tag all remain. -/
theorem untagged_someMembers (h : ∀ member ∈ members, member.1 ≠ tagKey) :
    untagged (someMembers members).asRead = (someMembers members).asRead := by
  induction members with
  | nil => rfl
  | cons member members ih =>
      have hName : member.1 ≠ tagKey := h member List.mem_cons_self
      have hRest := ih fun other hOther => h other (List.mem_cons_of_mem member hOther)
      simp only [someMembers] at hRest
      simp [someMembers, asRead, untagged, hName, hRest]

/-- Behind the tag, the members are read as a whole, unless they are held. -/
theorem findTag_someMembers (h : ∀ member ∈ members, member.1 ≠ tagKey)
    (hExact : (someMembers members).IsExact) (names : List String) (place : Place) (index : Nat) :
    findTag names place (someMembers members).asRead (some index) =
      if place.held then .ok index else fitting (someMembers members).depth place.room index := by
  induction members with
  | nil => 
      simp [someMembers, asRead, findTag, depth, fitting]
  | cons member members ih =>
      have hName : member.1 ≠ tagKey := h member List.mem_cons_self
      have hRest := ih (fun other hOther => h other (List.mem_cons_of_mem member hOther)) hExact.2
      have hWhole := checkWhole_asRead hExact.1 place
      simp only [someMembers] at hRest
      simp only [someMembers, List.foldr_cons, asRead, findTag, hName, if_false, hWhole, hRest,
        depth]
      cases place.held with
      | true => rfl
      | false =>
          by_cases hDepth : member.2.depth ≤ place.room
          · simp [fitting_of_le hDepth, fitting_max_of_le hDepth]
          · simp [fitting_of_lt (show place.room < member.2.depth by omega),
              fitting_max_of_lt (show place.room < member.2.depth by omega)]

/-- Decode a variant from the members of its object. -/
def taggedMembers (variants : List (String × Schema α)) (place : Place)
    (members : Json Fault .members) : Except DecodeError α :=
  match findTag (variants.map (·.1)) place members none with
  | .error e => .error e
  | .ok index =>
    match variants[index]? with
    | some (_, schema) => schema.ofMembers place.hold (untagged members)
    | none => .error (.missingField tagKey)

/-- A variant in an object is decoded from the members, one level further in. -/
theorem tagged_object (place : Place) (members : Json Fault .members) :
    tagged variants place (.object members) =
      match place.enter with
      | .error e => .error e
      | .ok place => taggedMembers variants place members := by
  unfold tagged
  cases place.enter with
  | error e => rfl
  | ok place =>
      simp only [taggedMembers, bind, Except.bind]
      cases findTag (variants.map (·.1)) place members none <;> rfl

/-- A variant is read from its tag and its members. -/
theorem Schema.Writes.reads_tagged (h : schema.Writes bound members a)
    (hNames : (tagKey :: schema.fields.names).Nodup) (hTag : variants.lookup tag = some schema) :
    Reads (bound + 1) (tagged variants)
      (.object (.member tagKey (.text tag) (someMembers members))) a := by
  obtain ⟨hKey, hNames⟩ := List.nodup_cons.mp hNames
  obtain ⟨index, hIndex, hAt⟩ := variant_of_lookup hTag
  have hUntagged : ∀ member ∈ members, member.1 ≠ tagKey := fun member hMember hName =>
    hKey (hName ▸ h.mem_names member hMember)
  have hDepth : (Json.object (.member tagKey (.text tag) (someMembers members))).depth =
      (someMembers members).depth + 1 := by simp [depth]
  refine reads_enter ⟨trivial, h.isExact⟩ hDepth (fun place => tagged_object place _) ?_
  intro place hRoom
  have hFound := findTag_someMembers hUntagged h.isExact (variants.map (·.1)) place index
  have hRead : schema.ofMembers place.hold (someMembers members).asRead =
      fitting (someMembers members).depth place.room a := h.ofMembers hNames place.hold hRoom
  have hRest := untagged_someMembers hUntagged
  simp only [taggedMembers, asRead, findTag, untagged, if_true, Decode.tag, hIndex, hFound, hRest]
  cases place.held with
  | true => simp [hAt, hRead]
  | false =>
      by_cases hFits : (someMembers members).depth ≤ place.room
      · simp [fitting_of_le hFits, hAt, hRead]
      · simp [fitting_of_lt (show place.room < (someMembers members).depth by omega)]

end Tagged

section Paired

variable {cases : List (String × Case α)} {kind : String} {a : α}

theorem paired_object (place : Place) (members : Json Fault .members) :
    paired cases place (.object members) =
      match place.enter with
      | .error e => .error e
      | .ok place => pairMembers cases place members .nothing := by
  unfold paired
  cases place.enter <;> rfl

/-- A case without content is read from its name. -/
theorem reads_paired_bare (hCase : cases.lookup kind = some (.bare a)) :
    Reads (bound + 1) (paired cases) (.object (someMembers [(kindKey, .text kind)])) a := by
  obtain ⟨index, hIndex, hAt⟩ := variant_of_lookup hCase
  refine reads_enter ⟨trivial, trivial⟩ rfl (fun place => paired_object place _) ?_
  intro place hRoom
  simp [someMembers, asRead, pairMembers, Pairing.step, Decode.choice, hIndex, hAt, Pairing.close,
    depth, fitting, bind, Except.bind, pure, Except.pure]

/-- A case is read from its name and its content. -/
theorem Reads.paired {decoder : Decoder α} {document : Document}
    (h : Reads bound decoder document a) (hCase : cases.lookup kind = some (.holding decoder)) :
    Reads (bound + 1) (paired cases)
      (.object (someMembers [(kindKey, .text kind), (contentKey, document)])) a := by
  obtain ⟨index, hIndex, hAt⟩ := variant_of_lookup hCase
  have hDepth : (someMembers [(kindKey, .text kind), (contentKey, document)]).depth =
      document.depth := by simp [someMembers, depth]
  refine reads_enter ⟨trivial, h.exact, trivial⟩ (congrArg (· + 1) hDepth)
    (fun place => paired_object place _) ?_
  intro place hRoom
  have hKey : contentKey ≠ kindKey := by decide
  have hContent := h.decode place hRoom
  by_cases hFits : document.depth ≤ place.room
  · rw [fitting_of_le hFits] at hContent ⊢
    simp [someMembers, asRead, pairMembers, Pairing.step, Decode.choice, hIndex, hAt, Case.decode,
      hContent, hKey, Pairing.close, bind, Except.bind, pure, Except.pure, Except.map]
  · have hDeep : place.room < document.depth := by omega
    rw [fitting_of_lt hDeep] at hContent ⊢
    simp [someMembers, asRead, pairMembers, Pairing.step, Decode.choice, hIndex, hAt, Case.decode,
      hContent, hKey, bind, Except.bind, pure, Except.pure, Except.map]

end Paired
end Records
end Json
end SetupLint
