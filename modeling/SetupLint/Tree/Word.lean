import SetupLint.Tree.Name

/-! Keywords, operators and literals. -/
namespace SetupLint

open Json (Decoder Document Schema)

/-- A modifier of a declaration. -/
inductive KeywordKind where
  | staticWord
  | lateWord
  | finalWord
  | constWord
  | varWord
  | covariantWord
  | externalWord
  | abstractWord
deriving DecidableEq

instance : Worded KeywordKind where
  all := [.staticWord, .lateWord, .finalWord, .constWord, .varWord, .covariantWord, .externalWord,
    .abstractWord]
  word
    | .staticWord => "static"
    | .lateWord => "late"
    | .finalWord => "final"
    | .constWord => "const"
    | .varWord => "var"
    | .covariantWord => "covariant"
    | .externalWord => "external"
    | .abstractWord => "abstract"

/-- A modifier and where it stands. -/
structure Keyword where
  kind : KeywordKind
  span : Span
deriving DecidableEq

namespace Keyword

def schema : Schema Keyword where
  fields :=
    .cons (required "kind" Worded.decode) <|
    .cons (defaulted "span" Span.schema.decode .zero) .nil
  make := fun ⟨kind, span, _⟩ => ⟨kind, span⟩

def encode (k : Keyword) : Document :=
  Json.record [("kind", Worded.encode k.kind), ("span", k.span.encode)]

def find? (kind : KeywordKind) (keywords : List Keyword) : Option Keyword :=
  keywords.find? fun k => k.kind = kind

end Keyword

/-- The kind of a member with a body. -/
inductive MethodKind where
  | method
  | getter
  | setter
  | operator
deriving DecidableEq

instance : Worded MethodKind where
  all := [.method, .getter, .setter, .operator]
  word
    | .method => "method"
    | .getter => "getter"
    | .setter => "setter"
    | .operator => "operator"

/-- How a body runs. -/
inductive BodyModifier where
  | sync
  | syncStar
  | async
  | asyncStar
deriving DecidableEq

instance : Worded BodyModifier where
  all := [.sync, .syncStar, .async, .asyncStar]
  word
    | .sync => "sync"
    | .syncStar => "sync_star"
    | .async => "async"
    | .asyncStar => "async_star"

def BodyModifier.isAsync : BodyModifier → Bool
  | .async | .asyncStar => true
  | .sync | .syncStar => false

inductive AssignOp where
  | assign
  | nullAssign
  | add
  | sub
  | mul
  | div
  | intDiv
  | rem
  | bitAnd
  | bitOr
  | bitXor
  | shiftLeft
  | shiftRight
deriving DecidableEq

instance : Worded AssignOp where
  all := [.assign, .nullAssign, .add, .sub, .mul, .div, .intDiv, .rem, .bitAnd, .bitOr, .bitXor,
    .shiftLeft, .shiftRight]
  word
    | .assign => "="
    | .nullAssign => "??="
    | .add => "+="
    | .sub => "-="
    | .mul => "*="
    | .div => "/="
    | .intDiv => "~/="
    | .rem => "%="
    | .bitAnd => "&="
    | .bitOr => "|="
    | .bitXor => "^="
    | .shiftLeft => "<<="
    | .shiftRight => ">>="

/-- A step by one. -/
inductive UpdateOp where
  | increment
  | decrement
deriving DecidableEq

instance : Worded UpdateOp where
  all := [.increment, .decrement]
  word
    | .increment => "++"
    | .decrement => "--"

/-- An operator with one operand. -/
inductive UnaryOp where
  | not
  | negate
  | bitNot
  /-- The operand is not null: `x!`. -/
  | nullAssert
deriving DecidableEq

instance : Worded UnaryOp where
  all := [.not, .negate, .bitNot, .nullAssert]
  word
    | .not => "not"
    | .negate => "negate"
    | .bitNot => "bit_not"
    | .nullAssert => "null_assert"

/-- A test of a type, or a cast. -/
inductive TypeTestKind where
  | is
  | isNot
  | as
deriving DecidableEq

instance : Worded TypeTestKind where
  all := [.is, .isNot, .as]
  word
    | .is => "is"
    | .isNot => "is_not"
    | .as => "as"

inductive LiteralValue where
  | null
  | bool (value : Bool)
  | int (value : Int64)
  | double (value : Double)
  | text (value : String)
  | symbol (value : String)
deriving DecidableEq

namespace LiteralValue

def cases : List (String × Json.Case LiteralValue) :=
  [("null", .bare .null),
   ("bool", .holding fun place reading => (Json.Decode.bool place reading).map .bool),
   ("int", .holding fun place reading => (Json.Decode.int64 place reading).map .int),
   ("double", .holding fun place reading => (Json.Decode.double place reading).map .double),
   ("string", .holding fun place reading => (Json.Decode.text place reading).map .text),
   ("symbol", .holding fun place reading => (Json.Decode.text place reading).map .symbol)]

def decode : Decoder LiteralValue := Json.paired cases

/-- A case and its content as a JSON object. -/
def encodePair (kind : String) (content : Option Document) : Document :=
  Json.record (("kind", .text kind) :: optionally "value" content)

def encode : LiteralValue → Document
  | .null => encodePair "null" none
  | .bool value => encodePair "bool" (some (.bool value))
  | .int value => encodePair "int" (some (Json.int value.toInt))
  | .double value => encodePair "double" (some (.number value.numeral))
  | .text value => encodePair "string" (some (.text value))
  | .symbol value => encodePair "symbol" (some (.text value))

end LiteralValue
end SetupLint
