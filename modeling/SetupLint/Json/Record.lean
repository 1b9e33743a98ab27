import SetupLint.Json.Word

/-! Records in JSON. A record is an object whose members come in any order, once
each, with unknown ones ignored, or an array of its fields in their order. A
field may have a value for its absence, and in the array form such fields may
be left out at the end. Variants of a type are records with a tag, and a tag
beside a content. -/
namespace SetupLint.Json

structure RecordField (α : Type) where
  name : String
  decode : Decoder α
  absent : Option α := none

inductive RecordFields : List Type → Type 1 where
  | nil : RecordFields []
  | cons {α : Type} {αs : List Type} (field : RecordField α) (rest : RecordFields αs) :
      RecordFields (α :: αs)

def Values : List Type → Type
  | [] => Unit
  | α :: αs => α × Values αs

/-- The values of a record that have been met so far. -/
def Slots : List Type → Type
  | [] => Unit
  | α :: αs => Option α × Slots αs

namespace RecordFields

def empty : {αs : List Type} → RecordFields αs → Slots αs
  | _, .nil => ()
  | _, .cons _ rest => (none, rest.empty)

/-- Put the member `key` into its slot. There is no answer for an unknown key. -/
def put (place : Place) (key : String) (value : Reading) :
    {αs : List Type} → RecordFields αs → Slots αs → Option (Except DecodeError (Slots αs))
  | _, .nil, _ => none
  | _, .cons field rest, (slot, slots) =>
    if field.name = key then
      match slot with
      | some _ => some (.error (.duplicateField key))
      | none => some ((field.decode place value).map fun a => (some a, slots))
    else (rest.put place key value slots).map fun result => result.map fun slots => (slot, slots)

def close : {αs : List Type} → RecordFields αs → Slots αs → Except DecodeError (Values αs)
  | _, .nil, _ => .ok ()
  | _, .cons field rest, (slot, slots) =>
    match slot <|> field.absent with
    | none => .error (.missingField field.name)
    | some a => (rest.close slots).map fun values => (a, values)

/-- The slots after some members. -/
def putAll (place : Place) {αs : List Type} (fields : RecordFields αs) :
    {p : Part} → Json Fault p → Slots αs → Except DecodeError (Slots αs)
  | _, .member key value rest, slots =>
    match fields.put place key value slots with
    | some (.ok slots) => putAll place fields rest slots
    | some (.error e) => .error e
    | none =>
      match checkSkip value with
      | .ok () => putAll place fields rest slots
      | .error e => .error e
  | _, .unkeyed why _ _, _ => .error why.onRead.error
  | _, .fault why, _ => .error why.onRead.error
  | _, _, slots => .ok slots

/-- The values of a record from the members of an object. -/
def ofMembers {αs : List Type} (fields : RecordFields αs) (place : Place)
    (members : Json Fault .members) : Except DecodeError (Values αs) :=
  match fields.putAll place members fields.empty with
  | .error e => .error e
  | .ok slots => fields.close slots

/-- The values of a record from the items of an array, of which `index` have
been used. -/
def ofItems (place : Place) (index : Nat) :
    {αs : List Type} → RecordFields αs → Json Fault .items → Except DecodeError (Values αs)
  | _, .nil, .noItems => .ok ()
  | _, .nil, .fault why => .error why.onRead.error
  | _, .nil, .item _ rest =>
    if place.held then .error (.invalidLength (index + rest.count + 1)) else .error .malformed
  | _, .cons field rest, .item value items =>
    match field.decode place value with
    | .error e => .error e
    | .ok a => (rest.ofItems place (index + 1) items).map fun values => (a, values)
  | _, .cons field rest, .noItems =>
    match field.absent with
    | none => .error (.invalidLength index)
    | some a => (rest.ofItems place (index + 1) .noItems).map fun values => (a, values)
  | _, .cons _ _, .fault why => .error why.onRead.error

end RecordFields

/-- How a type is made from the fields of a record. -/
structure Schema (α : Type) where
  {types : List Type}
  fields : RecordFields types
  make : Values types → α

namespace Schema

def ofMembers {α : Type} (schema : Schema α) (place : Place) (members : Json Fault .members) :
    Except DecodeError α :=
  (schema.fields.ofMembers place members).map schema.make

def ofItems {α : Type} (schema : Schema α) (place : Place) (items : Json Fault .items) :
    Except DecodeError α :=
  (schema.fields.ofItems place 0 items).map schema.make

def decode {α : Type} (schema : Schema α) : Decoder α := fun place reading =>
  match reading with
  | .object members =>
    match place.enter with
    | .error e => .error e
    | .ok place => schema.ofMembers place members
  | .array items =>
    match place.enter with
    | .error e => .error e
    | .ok place => schema.ofItems place items
  | _ => .error (mistyped reading)

end Schema

def tagKey : String := "type"

/-- The members without the tag. -/
def untagged : {p : Part} → Json Fault p → Json Fault p
  | _, .member key value rest =>
    if key = tagKey then untagged rest else .member key value (untagged rest)
  | _, tree => tree

/-- Find the tag among the members of an object and read the others as a whole. -/
def findTag (names : List String) (place : Place) :
    {p : Part} → Json Fault p → Option Nat → Except DecodeError Nat
  | _, .member key value rest, found =>
    if key = tagKey then
      match found with
      | some _ => .error (.duplicateField tagKey)
      | none =>
        match Decode.tag names place value with
        | .error e => .error e
        | .ok index => findTag names place rest (some index)
    else
      match checkWhole place value with
      | .error e => .error e
      | .ok () => findTag names place rest found
  | _, .unkeyed why _ _, _ => .error why.onRead.error
  | _, .fault why, _ => .error why.onRead.error
  | _, _, none => .error (.missingField tagKey)
  | _, _, some index => .ok index

/-- Decode a variant: an object with its tag among the fields, or an array of
the tag and the fields. Everything but the tag is held before the fields are
decoded. -/
def tagged {α : Type} (variants : List (String × Schema α)) : Decoder α :=
  fun place reading => do
  let names := variants.map (·.1)
  match reading with
  | .object members =>
    let place ← place.enter
    let index ← findTag names place members none
    match variants[index]? with
    | some (_, schema) => schema.ofMembers place.hold (untagged members)
    | none => .error (.missingField tagKey)
  | .array items =>
    let place ← place.enter
    match items with
    | .item value rest =>
      let index ← Decode.tag names place value
      checkWhole place rest
      match variants[index]? with
      | some (_, schema) => schema.ofItems place.hold rest
      | none => .error (.missingField tagKey)
    | .fault why => .error why.onRead.error
    | .noItems => .error (.missingField tagKey)
  | _ => .error (mistyped reading)

/-- A case of a type that is written as a tag beside a content. -/
inductive Case (α : Type) where
  /-- A case without content. -/
  | bare (value : α)
  /-- A case with a content. -/
  | holding (decode : Decoder α)

/-- The key of the tag beside a content. -/
def kindKey : String := "kind"

def contentKey : String := "value"

def Case.decode {α : Type} (this : Case α) : Decoder α := fun place reading =>
  match this with
  | .holding decode => decode place reading
  | .bare value =>
    match reading with
    | .null => .ok value
    | .array _ => place.enter.bind fun _ => .error (mistyped reading)
    | .object _ => place.enter.bind fun _ => .error (mistyped reading)
    | _ => .error (mistyped reading)

/-- What has been met of a tag and its content. -/
inductive Pairing (α : Type) where
  | nothing
  | kind (this : Case α)
  | content (reading : Reading)
  | both (value : α)

/-- Go on with a tag or a content. A content before its tag is read as a whole
and held. -/
def Pairing.step {α : Type} (cases : List (String × Case α)) (place : Place) (key : String)
    (value : Reading) : Pairing α → Except DecodeError (Pairing α)
  | .nothing =>
    if key = kindKey then do
      let index ← Decode.choice (cases.map (·.1)) place value
      match cases[index]? with
      | some (_, this) => return .kind this
      | none => .error (.missingField kindKey)
    else do
      checkWhole place value
      return .content value
  | .kind this =>
    if key = kindKey then .error (.duplicateField kindKey)
    else (this.decode place value).map .both
  | .content waiting =>
    if key = contentKey then .error (.duplicateField contentKey)
    else do
      let index ← Decode.choice (cases.map (·.1)) place value
      match cases[index]? with
      | some (_, this) => (this.decode place.hold waiting).map .both
      | none => .error (.missingField kindKey)
  | .both _ => .error (.duplicateField key)

/-- The value when the members are over. -/
def Pairing.close {α : Type} : Pairing α → Except DecodeError α
  | .nothing => .error (.missingField kindKey)
  | .kind (.bare value) => .ok value
  | .kind (.holding _) => .error (.missingField contentKey)
  | .content _ => .error (.missingField kindKey)
  | .both value => .ok value

/-- Go through the members of an object that has a tag and a content. -/
def pairMembers {α : Type} (cases : List (String × Case α)) (place : Place) :
    {p : Part} → Json Fault p → Pairing α → Except DecodeError α
  | _, .member key value rest, pairing =>
    if key = kindKey ∨ key = contentKey then
      match pairing.step cases place key value with
      | .error e => .error e
      | .ok pairing => pairMembers cases place rest pairing
    else
      match checkSkip value with
      | .error e => .error e
      | .ok () => pairMembers cases place rest pairing
  | _, .unkeyed why _ _, _ => .error why.onRead.error
  | _, .fault why, _ => .error why.onRead.error
  | _, _, pairing => pairing.close

/-- Decode a tag beside a content: an object with both, or an array of two. -/
def paired {α : Type} (cases : List (String × Case α)) : Decoder α :=
  fun place reading => do
  match reading with
  | .object members =>
    let place ← place.enter
    pairMembers cases place members .nothing
  | .array items =>
    let place ← place.enter
    match items with
    | .item kind rest =>
      let index ← Decode.tag (cases.map (·.1)) place kind
      match cases[index]?, rest with
      | some (_, this), .item content rest =>
        let value ← this.decode place content
        match rest with
        | .noItems => return value
        | .fault why => .error why.onRead.error
        | .item _ rest =>
          if place.held then .error (.invalidLength (rest.count + 3)) else .error .malformed
      | _, .fault why => .error why.onRead.error
      | _, _ => .error (.invalidLength 1)
    | .fault why => .error why.onRead.error
    | .noItems => .error (.invalidLength 0)
  | _ => .error (mistyped reading)

end SetupLint.Json
