import SetupLint.Tree.Name

/-! What a reference was resolved to. -/
namespace SetupLint

open Json (Document Schema)

inductive SymbolKind where
  | localVariable
  | parameter
  /-- A field, also by its implicit getter or setter. -/
  | field
  | getter
  | setter
  | method
  | constructor
  /-- A function at the top level. -/
  | function
  | topLevelVariable
  | classType
  /-- The name under which a library is imported. -/
  | importName
deriving DecidableEq

instance : Worded SymbolKind where
  all := [.localVariable, .parameter, .field, .getter, .setter, .method, .constructor, .function,
    .topLevelVariable, .classType, .importName]
  word
    | .localVariable => "local_variable"
    | .parameter => "parameter"
    | .field => "field"
    | .getter => "getter"
    | .setter => "setter"
    | .method => "method"
    | .constructor => "constructor"
    | .function => "function"
    | .topLevelVariable => "top_level_variable"
    | .classType => "class"
    | .importName => "prefix"

/-- The declaration that a reference stands for. -/
structure Resolution where
  kind : SymbolKind
  /-- The type that declares the member. -/
  owner : Option String := none
  isStatic : Bool := false
deriving DecidableEq

namespace Resolution

/-- Whether this is a field of the instances of `owner`. -/
def isInstanceFieldOf (r : Resolution) (owner : String) : Bool :=
  r.kind = .field && !r.isStatic && r.owner = some owner

/-- Whether this is a field or a getter of the instances of `owner`. -/
def isInstanceMemberOf (r : Resolution) (owner : String) : Bool :=
  r.isInstanceFieldOf owner || (r.kind = .getter && !r.isStatic && r.owner = some owner)

def schema : Schema Resolution where
  fields :=
    .cons (required "kind" Worded.decode) <|
    .cons (optional "owner" Json.Decode.text) <|
    .cons (flag "is_static") .nil
  make := fun ⟨kind, owner, isStatic, _⟩ => { kind, owner, isStatic }

def encode (r : Resolution) : Document :=
  Json.record <|
    [("kind", Worded.encode r.kind)] ++ optionally "owner" (r.owner.map .text) ++
      [("is_static", .bool r.isStatic)]

end Resolution
end SetupLint
