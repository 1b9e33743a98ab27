/-! Wildcards: patterns that leave some places of a text open. A text is a list of
symbols, which are numbers: the code points of its characters or the bytes of its
UTF-8 form. A pattern is matched by marking the places of the text that can be
reached, for all ways at once, so that no place is looked at twice for one part of
the pattern. -/
namespace SetupLint

/-- Some symbols: those in one of the ranges or, if negated, those in none. -/
structure SymbolSet where
  negated : Bool
  ranges : List (Nat × Nat)
deriving DecidableEq, Repr

namespace SymbolSet

def all : SymbolSet := ⟨true, []⟩

def only (symbol : Nat) : SymbolSet := ⟨false, [(symbol, symbol)]⟩

def except (symbol : Nat) : SymbolSet := ⟨true, [(symbol, symbol)]⟩

def contains (set : SymbolSet) (symbol : Nat) : Bool :=
  (set.ranges.any fun (first, last) => first ≤ symbol && symbol ≤ last) != set.negated

end SymbolSet

/-- A pattern for a text. -/
inductive Wildcard where
  | nothing
  | one (set : SymbolSet)
  | many (set : SymbolSet)
  | both (first second : Wildcard)
  | either (first second : Wildcard)
deriving DecidableEq, Repr

namespace Wildcard

def append : Wildcard → Wildcard → Wildcard
  | .nothing, w => w
  | w, .nothing => w
  | v, w => .both v w

def sequence (ws : List Wildcard) : Wildcard := ws.foldr append .nothing

/-- One of some patterns. Without any there is nothing to match. -/
def choice : List Wildcard → Wildcard
  | [] => .nothing
  | [w] => w
  | w :: ws => .either w (choice ws)

/-- The places reached from marked ones by any number of symbols of a set. -/
def spread (set : SymbolSet) (carried : Bool) : List Nat → List Bool → List Bool
  | _, [] => []
  | [], mark :: _ => [carried || mark]
  | c :: cs, mark :: marks =>
    let here := carried || mark
    here :: spread set (here && set.contains c) cs marks

/-- The places of a text that a pattern leads to from marked ones. A text has one
place more than symbols: before each of them and at the end. -/
def reach (text : List Nat) : Wildcard → List Bool → List Bool
  | .nothing, marks => marks
  | .one set, marks => false :: List.zipWith (fun c mark => mark && set.contains c) text marks
  | .many set, marks => spread set false text marks
  | .both v w, marks => reach text w (reach text v marks)
  | .either v w, marks => List.zipWith (· || ·) (reach text v marks) (reach text w marks)

/-- Whether a text as a whole fits a pattern: from its start the pattern leads to its
end. -/
def fits (w : Wildcard) (text : List Nat) : Bool :=
  (w.reach text (true :: text.map fun _ => false)).getLastD false

end Wildcard
end SetupLint
