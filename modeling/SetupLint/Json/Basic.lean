import SetupLint.Number.Shortest

/-! JSON trees. One family holds values, the items of an array and the members
of an object, so a fact about all of them is a single induction. The tree is
parametrised by the faults it may contain: a tree over `Empty` is a complete
document, a tree over a type of faults may break off. Numbers are kept as they
are written and members in their order, repetitions included. -/
namespace SetupLint

/-- What a JSON tree stands for. -/
inductive Json.Part where
  | value
  | items
  | members
deriving DecidableEq

/-- A JSON tree with faults from `φ`. -/
inductive Json (φ : Type) : Json.Part → Type where
  | null : Json φ .value
  | bool (b : Bool) : Json φ .value
  | number (n : Numeral) : Json φ .value
  | text (s : String) : Json φ .value
  | array (items : Json φ .items) : Json φ .value
  | object (members : Json φ .members) : Json φ .value
  | noItems : Json φ .items
  | item (value : Json φ .value) (rest : Json φ .items) : Json φ .items
  | noMembers : Json φ .members
  | member (key : String) (value : Json φ .value) (rest : Json φ .members) : Json φ .members
  /-- A member whose key cannot be read. -/
  | unkeyed (why : φ) (value : Json φ .value) (rest : Json φ .members) : Json φ .members
  /-- A place where nothing can be read. -/
  | fault {p : Json.Part} (why : φ) : Json φ p

namespace Json

/-- A complete JSON value. -/
abbrev Document := Json Empty .value

def int (n : Int) : Document := .number (.ofInt n)

def list (values : List Document) : Document := .array (values.foldr .item .noItems)

/-- The object with some members, in this order. -/
def record (members : List (String × Document)) : Document :=
  .object (members.foldr (fun (key, value) rest => .member key value rest) .noMembers)

/-- Whether a list of items or members is over. -/
def isDone {φ : Type} : {p : Part} → Json φ p → Bool
  | _, .noItems => true
  | _, .noMembers => true
  | _, _ => false

def count {φ : Type} : {p : Part} → Json φ p → Nat
  | _, .item _ rest => rest.count + 1
  | _, .member _ _ rest => rest.count + 1
  | _, .unkeyed _ _ rest => rest.count + 1
  | _, _ => 0

/-- How many arrays and objects are open at the deepest point. -/
def depth {φ : Type} : {p : Part} → Json φ p → Nat
  | _, .array items => items.depth + 1
  | _, .object members => members.depth + 1
  | _, .item value rest => max value.depth rest.depth
  | _, .member _ value rest => max value.depth rest.depth
  | _, .unkeyed _ value rest => max value.depth rest.depth
  | _, _ => 0

/-- The same tree without the possibility of faults, if there is none in it. -/
def complete? {φ : Type} : {p : Part} → Json φ p → Option (Json Empty p)
  | _, .null => some .null
  | _, .bool b => some (.bool b)
  | _, .number n => some (.number n)
  | _, .text s => some (.text s)
  | _, .array items => items.complete?.map .array
  | _, .object members => members.complete?.map .object
  | _, .noItems => some .noItems
  | _, .item value rest => do return .item (← value.complete?) (← rest.complete?)
  | _, .noMembers => some .noMembers
  | _, .member key value rest => do return .member key (← value.complete?) (← rest.complete?)
  | _, .unkeyed _ _ _ => none
  | _, .fault _ => none

end Json
end SetupLint
