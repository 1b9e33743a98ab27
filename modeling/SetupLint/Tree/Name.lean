import SetupLint.Tree.Span

/-! Names where they are declared, and written types. -/
namespace SetupLint

open Json (Decoder Document RecordField Schema)

/-- A field that must be present. -/
def required {α : Type} (name : String) (decode : Decoder α) : RecordField α :=
  { name, decode }

/-- A field that is `value` when it is absent. -/
def defaulted {α : Type} (name : String) (decode : Decoder α) (value : α) : RecordField α :=
  { name, decode, absent := some value }

/-- A field that may be absent or `null`. -/
def optional {α : Type} (name : String) (decode : Decoder α) : RecordField (Option α) :=
  { name, decode := Json.Decode.nullable decode, absent := some none }

/-- A truth value that is false when it is absent. -/
def flag (name : String) : RecordField Bool := defaulted name Json.Decode.bool false

def spanField : RecordField Span := required "span" Span.schema.decode

/-- The members for an optional value: none without it. -/
def optionally (name : String) (value : Option Document) : List (String × Document) :=
  value.toList.map fun value => (name, value)

/-- An identifier in a declaration, a label or a member. -/
structure Name where
  text : String
  span : Span
deriving DecidableEq, Inhabited

namespace Name

def schema : Schema Name where
  fields :=
    .cons (required "name" Json.Decode.text) <|
    .cons (defaulted "span" Span.schema.decode .zero) .nil
  make := fun ⟨text, span, _⟩ => ⟨text, span⟩

def encode (n : Name) : Document :=
  Json.record [("name", .text n.text), ("span", n.span.encode)]

end Name

/-- A written type such as `State<List<int>>?`. -/
structure TypeRef where
  span : Span
  name : String
  args : List TypeRef
  nullable : Bool

namespace TypeRef

mutual

def decEq : (t u : TypeRef) → Decidable (t = u)
  | ⟨span, name, args, nullable⟩, ⟨span', name', args', nullable'⟩ =>
    match decEqAll args args' with
    | .isTrue h =>
      decidable_of_iff (span = span' ∧ name = name' ∧ nullable = nullable') (by subst h; simp)
    | .isFalse h => .isFalse fun e => h (by injection e)

def decEqAll : (ts us : List TypeRef) → Decidable (ts = us)
  | [], [] => .isTrue rfl
  | [], _ :: _ => .isFalse nofun
  | _ :: _, [] => .isFalse nofun
  | t :: ts, u :: us =>
    match decEq t u, decEqAll ts us with
    | .isTrue h, .isTrue h' => .isTrue (by rw [h, h'])
    | .isFalse h, _ => .isFalse fun e => h (by injection e)
    | _, .isFalse h => .isFalse fun e => h (by injection e)

end

instance : DecidableEq TypeRef := decEq

/-- The part of a name behind its last point. -/
def lastSegment (name : List Char) : List Char :=
  (name.reverse.takeWhile (· ≠ '.')).reverse

/-- The name without the prefix of an import: `State` for `ui.State`. -/
def simpleName (t : TypeRef) : String := String.ofList (lastSegment t.name.toList)

mutual

/-- A type as it is written. -/
def display : TypeRef → List Char
  | ⟨_, name, args, nullable⟩ =>
    name.toList ++
      (if args.isEmpty then [] else '<' :: (displayAll args ++ ['>'])) ++
      (if nullable then ['?'] else [])

def displayAll : List TypeRef → List Char
  | [] => []
  | [t] => display t
  | t :: ts => display t ++ [',', ' '] ++ displayAll ts

end

def text (t : TypeRef) : String := String.ofList t.display

/-- The fields of a type, with the list of its arguments decoded by `args`. -/
def schema (args : Decoder (List TypeRef)) : Schema TypeRef where
  fields :=
    .cons (defaulted "span" Span.schema.decode .zero) <|
    .cons (required "name" Json.Decode.text) <|
    .cons (defaulted "args" args []) <|
    .cons (flag "nullable") .nil
  make := fun ⟨span, name, args, nullable, _⟩ => ⟨span, name, args, nullable⟩

/-- Decode a type that nests at most `fuel` deep. No type nests deeper than
arrays and objects may be open. -/
def decodeNested : (fuel : Nat) → Decoder TypeRef
  | 0, _, reading => .error (Json.mistyped reading)
  | fuel + 1, place, reading =>
    (schema (Json.Decode.list (decodeNested fuel))).decode place reading

def decode : Decoder TypeRef := fun place => decodeNested (place.room + 1) place

mutual

def encode : TypeRef → Document
  | ⟨span, name, args, nullable⟩ =>
    Json.record
      [("span", span.encode), ("name", .text name), ("args", Json.list (encodeAll args)),
       ("nullable", .bool nullable)]

def encodeAll : List TypeRef → List Document
  | [] => []
  | t :: ts => encode t :: encodeAll ts

end

end TypeRef
end SetupLint
