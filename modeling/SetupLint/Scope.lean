/-! Where a walk through a setup routine is: in which conditionals and loops, and
whether inside the builder closure. -/
namespace SetupLint

/-- A construct that a walk is inside of. -/
inductive Frame where
  | conditional
  | loop
  | builder
deriving DecidableEq

/-- The constructs around a place, the innermost first, with the number of conditionals
and loops among them and whether the builder closure is one of them. -/
structure Scope where
  frames : List Frame := []
  depth : Nat := 0
  insideBuilder : Bool := false
deriving DecidableEq

namespace Scope

/-- The place before any construct. -/
def outermost : Scope := {}

def enter (s : Scope) (frame : Frame) : Scope :=
  match frame with
  | .builder => { s with frames := frame :: s.frames, insideBuilder := true }
  | _ => { s with frames := frame :: s.frames, depth := s.depth + 1 }

/-- Leave a conditional or a loop. Outside of all constructs nothing happens. -/
def leave (s : Scope) : Scope :=
  match s.frames with
  | [] => s
  | _ :: frames => { s with frames, depth := s.depth - 1 }

/-- Leave the builder closure. Outside of all constructs nothing happens. -/
def leaveBuilder (s : Scope) : Scope :=
  match s.frames with
  | [] => s
  | _ :: frames => { s with frames, insideBuilder := false }

/-- Leave a construct of a kind. -/
def exit (s : Scope) (frame : Frame) : Scope :=
  match frame with
  | .builder => s.leaveBuilder
  | _ => s.leave

/-- Whether the place is inside a conditional or a loop. -/
def isConditional (s : Scope) : Bool := decide (0 < s.depth)

end Scope
end SetupLint
