import SetupLint.Json.Decode

/-! Types whose values are written as single words. -/
namespace SetupLint

/-- A type with finitely many values, each written as a word. -/
class Worded (α : Type) where
  /-- The values in their order. -/
  all : List α
  /-- The word of a value. -/
  word : α → String

namespace Worded

def ofWord? {α : Type} [Worded α] (w : String) : Option α := (all (α := α)).find? (word · == w)

def decode {α : Type} [Worded α] : Json.Decoder α := fun place reading => do
  let index ← Json.Decode.choice ((all (α := α)).map word) place reading
  match (all (α := α))[index]? with
  | some a => .ok a
  | none => .error .malformed

def encode {α : Type} [Worded α] (a : α) : Json.Document := .text (word a)

end Worded
end SetupLint
