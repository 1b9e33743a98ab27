import SetupLint.Json.Record
import SetupLint.Text.Offset

/-! Spans of bytes in a source text. A span may be empty or run backwards; it
only says where something was found. -/
namespace SetupLint

/-- The bytes from `start` up to `stop`. -/
structure Span where
  start : UInt32
  stop : UInt32
deriving DecidableEq, Inhabited, Repr

namespace Span

/-- The span of what was not found anywhere. -/
def zero : Span := ⟨0, 0⟩

/-- The number of bytes, none if the span runs backwards. -/
def length (s : Span) : Nat := s.stop.toNat - s.start.toNat

/-- Whether a span covers no byte. -/
def isEmpty (s : Span) : Bool := s.stop ≤ s.start

/-- Whether `other` lies within `s`. -/
def contains (s other : Span) : Bool := s.start ≤ other.start && other.stop ≤ s.stop

/-- From the smaller start to the larger end. -/
def merge (s other : Span) : Span := ⟨min s.start other.start, max s.stop other.stop⟩

/-- The covered piece of a source, if the span cuts it between characters. -/
def sourceText? (s : Span) (source : String) : Option String :=
  (Text.slice? s.start.toNat s.stop.toNat source.toList).map String.ofList

/-- A span as `start..stop`. -/
def display (s : Span) : String := s!"{s.start}..{s.stop}"

def schema : Json.Schema Span where
  fields :=
    .cons { name := "start", decode := Json.Decode.uint32 } <|
    .cons { name := "end", decode := Json.Decode.uint32 } .nil
  make := fun ⟨start, stop, _⟩ => ⟨start, stop⟩

def encode (s : Span) : Json.Document :=
  Json.record [("start", Json.int s.start.toNat), ("end", Json.int s.stop.toNat)]

end Span
end SetupLint
