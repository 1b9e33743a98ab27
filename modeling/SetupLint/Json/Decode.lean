import SetupLint.Json.Reader

/-! Decoding JSON trees into values. A decoder goes through a tree from left to
right and stops at the first mistake, of spelling or of shape. Arrays and objects
may be open at most `maxDepth` deep. What has to be looked at twice is first
read as a whole and then *held*; in a held tree only mistakes of shape remain. -/
namespace SetupLint.Json

/-- What stands where something else is expected. -/
inductive Found where
  | null
  | bool (value : Bool)
  | int (value : Int)
  | double (value : Double)
  | text (value : String)
  | sequence
  | map
deriving DecidableEq

/-- Why a text does not decode. -/
inductive DecodeError where
  /-- The text is no JSON, or nests too deeply, or has a number that is too large. -/
  | malformed
  /-- The text ends too early. -/
  | ended
  | missingField (name : String)
  | duplicateField (name : String)
  | unknownVariant (name : String)
  | invalidType (found : Found)
  | invalidValue (found : Found)
  | invalidLength (length : Nat)
deriving DecidableEq

def Defect.error : Defect → DecodeError
  | .ended => .ended
  | .malformed => .malformed

/-- How many arrays and objects may be open at once. -/
def maxDepth : Nat := 127

/-- Where a decoder stands: how many arrays and objects may still be opened, and
whether the tree is held. -/
structure Place where
  room : Nat
  held : Bool

/-- A decoder of values of type `α`. -/
abbrev Decoder (α : Type) := Place → Reading → Except DecodeError α

def Place.enter (place : Place) : Except DecodeError Place :=
  match place.room with
  | 0 => .error .malformed
  | room + 1 => .ok { place with room }

def Place.hold (place : Place) : Place := { place with held := true }

/-- The error of a value that is not of the expected type. -/
def mistyped : Reading → DecodeError
  | .null => .invalidType .null
  | .bool b => .invalidType (.bool b)
  | .number n =>
    match n.value? with
    | none => .malformed
    | some (.int i) => .invalidType (.int i)
    | some (.double d) => .invalidType (.double d)
  | .text s => .invalidType (.text s)
  | .array _ => .invalidType .sequence
  | .object _ => .invalidType .map
  | .fault why => why.onRead.error

/-- The first defect that reading a tree as a whole meets. -/
def wholeDefect : (room : Nat) → {p : Part} → Json Fault p → Option Defect
  | _, _, .number n => if n.value?.isNone then some .malformed else none
  | 0, _, .array _ => some .malformed
  | room + 1, _, .array items => wholeDefect room items
  | 0, _, .object _ => some .malformed
  | room + 1, _, .object members => wholeDefect room members
  | room, _, .item value rest => wholeDefect room value <|> wholeDefect room rest
  | room, _, .member _ value rest => wholeDefect room value <|> wholeDefect room rest
  | _, _, .unkeyed why _ _ => some why.onRead
  | _, _, .fault why => some why.onRead
  | _, _, _ => none

/-- The first defect that skipping a tree meets. -/
def skipDefect : {p : Part} → Json Fault p → Option Defect
  | _, .array items => skipDefect items
  | _, .object members => skipDefect members
  | _, .item value rest => skipDefect value <|> skipDefect rest
  | _, .member _ value rest => skipDefect value <|> skipDefect rest
  | _, .unkeyed why value rest => why.onSkip <|> skipDefect value <|> skipDefect rest
  | _, .fault why => why.onSkip
  | _, _ => none

def orFail (defect : Option Defect) : Except DecodeError Unit :=
  match defect with
  | none => .ok ()
  | some defect => .error defect.error

/-- Read a tree as a whole, unless it is held and so has been. -/
def checkWhole {p : Part} (place : Place) (tree : Json Fault p) : Except DecodeError Unit :=
  if place.held then .ok () else orFail (wholeDefect place.room tree)

def checkSkip {p : Part} (tree : Json Fault p) : Except DecodeError Unit :=
  orFail (skipDefect tree)

namespace Decode

/-- A whole number from `low` to `high`. -/
def int (low high : Int) : Decoder Int := fun _ reading =>
  match reading with
  | .number n =>
    match n.value? with
    | some (.int i) => if low ≤ i ∧ i ≤ high then .ok i else .error (.invalidValue (.int i))
    | _ => .error (mistyped reading)
  | _ => .error (mistyped reading)

def uint32 : Decoder UInt32 := fun place reading =>
  (int 0 0xFFFFFFFF place reading).map fun i => UInt32.ofNat i.toNat

def int64 : Decoder Int64 := fun place reading =>
  (int Int64.minValue.toInt Int64.maxValue.toInt place reading).map Int64.ofInt

/-- A binary64 number, also written as a whole number. -/
def double : Decoder Double := fun _ reading =>
  match reading with
  | .number n =>
    match n.value? with
    | some (.double d) => .ok d
    | some (.int i) =>
      match Double.ofInt? i with
      | some d => .ok d
      | none => .error .malformed
    | none => .error .malformed
  | _ => .error (mistyped reading)

def bool : Decoder Bool := fun _ reading =>
  match reading with
  | .bool b => .ok b
  | _ => .error (mistyped reading)

def text : Decoder String := fun _ reading =>
  match reading with
  | .text s => .ok s
  | _ => .error (mistyped reading)

def nullable {α : Type} (decoder : Decoder α) : Decoder (Option α) := fun place reading =>
  match reading with
  | .null => .ok none
  | _ => (decoder place reading).map some

/-- The items of an array, up to its end. -/
def items {α : Type} (decoder : Reading → Except DecodeError α) :
    {p : Part} → Json Fault p → Except DecodeError (List α)
  | _, .item value rest =>
    match decoder value with
    | .error e => .error e
    | .ok a => (items decoder rest).map (a :: ·)
  | _, .fault why => .error why.onRead.error
  | _, _ => .ok []

def list {α : Type} (decoder : Decoder α) : Decoder (List α) := fun place reading =>
  match reading with
  | .array items =>
    match place.enter with
    | .error e => .error e
    | .ok place => Decode.items (decoder place) items
  | _ => .error (mistyped reading)

/-- The members of an object, up to its end. -/
def entries {α : Type} (decoder : Reading → Except DecodeError α) :
    {p : Part} → Json Fault p → Except DecodeError (List (String × α))
  | _, .member key value rest =>
    match decoder value with
    | .error e => .error e
    | .ok a => (entries decoder rest).map ((key, a) :: ·)
  | _, .unkeyed why _ _ => .error why.onRead.error
  | _, .fault why => .error why.onRead.error
  | _, _ => .ok []

/-- An object whose keys are free. -/
def dictionary {α : Type} (decoder : Decoder α) : Decoder (List (String × α)) :=
  fun place reading =>
  match reading with
  | .object members =>
    match place.enter with
    | .error e => .error e
    | .ok place => entries (decoder place) members
  | _ => .error (mistyped reading)

/-- The place of a name among the names of variants. -/
def variant (names : List String) (name : String) : Except DecodeError Nat :=
  if name ∈ names then .ok (names.idxOf name) else .error (.unknownVariant name)

/-- What stands for nothing beside the name of a variant: `null`, and in a held
tree also an empty object. -/
def nothing (place : Place) (reading : Reading) : Except DecodeError Unit :=
  match reading with
  | .null => .ok ()
  | .object .noMembers => if place.held then .ok () else .error (mistyped reading)
  | _ => .error (mistyped reading)

/-- The name of a variant: a text, or an object with this name as its only key
and nothing as its value. Outside a held tree anything else is no JSON where a
name is expected. -/
def choice (names : List String) : Decoder Nat := fun place reading =>
  match reading with
  | .text s => variant names s
  | .object members =>
    if place.held then
      match members with
      | .member key value .noMembers => do
        let index ← variant names key
        nothing place value
        return index
      | _ => .error (.invalidValue .map)
    else do
      let _ ← place.enter
      match members with
      | .member key value rest =>
        let index ← variant names key
        nothing place value
        match rest with
        | .noMembers => return index
        | .fault why => .error why.onRead.error
        | _ => .error .malformed
      | .noMembers => .error .malformed
      | .unkeyed why _ _ => .error why.onRead.error
      | .fault why => .error why.onRead.error
  | .fault why => .error why.onName.error
  | _ => if place.held then .error (mistyped reading) else .error .malformed

/-- The tag of a variant: a text, and in a held tree also its number. -/
def tag (names : List String) : Decoder Nat := fun place reading =>
  match reading with
  | .text s => variant names s
  | .number n =>
    match place.held, n.value? with
    | true, some (.int i) =>
      if 0 ≤ i then
        if i < names.length then .ok i.toNat else .error (.invalidValue (.int i))
      else .error (mistyped reading)
    | _, _ => .error (mistyped reading)
  | _ => .error (mistyped reading)

end Decode

/-- Decode a JSON text. Only blanks may follow the value. -/
def Decoder.run {α : Type} (decoder : Decoder α) (text : String) : Except DecodeError α :=
  let (reading, trailing) := read text
  match decoder ⟨maxDepth, false⟩ reading with
  | .error e => .error e
  | .ok a => if trailing then .error .malformed else .ok a

end SetupLint.Json
