import SetupLint.Tree.Walk

/-! Recursion and induction over the parts of a phrase. What holds of a phrase as soon as
it holds of its parts holds of every phrase, so facts about a walk need one step and not
one case for each form of phrase. -/
namespace SetupLint

namespace Phrase

variable {c : Category}

/-- A result for a phrase is one for its parts, put together. -/
theorem fold_eq {α : Type} (f : {c : Category} → Phrase c → List α → α) (p : Phrase c) :
    p.fold f = f p (p.parts.map fun part => part.phrase.fold f) := by
  cases p <;> rfl

/-- Induction over the parts of a phrase. -/
@[elab_as_elim]
theorem induction_parts {motive : {c : Category} → Phrase c → Prop}
    (step : ∀ {c : Category} (p : Phrase c), (∀ part ∈ p.parts, motive part.phrase) → motive p)
    (p : Phrase c) : motive p := by
  induction p <;> (apply step; simp [parts]) <;> simp [*]

/-- Induction over the elements of a list. -/
@[elab_as_elim]
theorem induction_list {motive : Phrase (.list c) → Prop} (nil : motive .nil)
    (cons : ∀ (head : Phrase c) (tail : Phrase (.list c)), motive tail → motive (.cons head tail))
    (l : Phrase (.list c)) : motive l := by
  have hParts : ∀ {d : Category} (p : Phrase d) (h : d = .list c), motive (h ▸ p) := by
    intro d p
    induction p using induction_parts with
    | step p ih =>
        rintro rfl
        cases p with
        | nil => exact nil
        | cons head tail => exact cons head tail (ih ⟨tail⟩ (by simp [parts]) rfl)
  exact hParts l rfl

/-- Induction over the parentheses around an expression. -/
@[elab_as_elim]
theorem induction_paren {motive : Expr → Prop}
    (paren : ∀ (span : Span) (expression : Expr),
      motive expression → motive (.paren span expression))
    (bare : ∀ e : Expr, (∀ span expression, e ≠ .paren span expression) → motive e)
    (e : Expr) : motive e := by
  have hParts : ∀ {d : Category} (p : Phrase d) (h : d = .expr), motive (h ▸ p : Phrase .expr) := by
    intro d p
    induction p using induction_parts with
    | step p ih =>
        rintro rfl
        by_cases hParen : ∃ span expression, p = .paren span expression
        · obtain ⟨span, expression, rfl⟩ := hParen
          exact paren span expression (ih ⟨expression⟩ (by simp [parts]) rfl)
        · exact bare p fun span expression he => hParen ⟨span, expression, he⟩
  exact hParts e rfl

/-- A walk gives what it finds at a phrase and then what it finds in its parts. -/
theorem walk_eq {γ α : Type} (w : Walk γ α) (p : Phrase c) (context : γ) :
    p.walk w context = w.visit p context ++
      p.parts.zipIdx.flatMap fun (part, i) => part.phrase.walk w (w.within p i context) := by
  unfold walk
  rw [fold_eq, List.zipIdx_map, List.flatMap_map]
  rfl

def at? : {c : Category} → Phrase c → Address → Option Node
  | _, p, [] => some ⟨p⟩
  | _, p, i :: address => p.parts[i]?.bind fun part => part.phrase.at? address

/-- The phrases around the phrase at an address, from the outside in. -/
def enclosing : {c : Category} → Phrase c → Address → List Node
  | _, _, [] => []
  | _, p, i :: address => ⟨p⟩ :: p.parts[i]?.elim [] fun part => part.phrase.enclosing address

@[simp]
theorem at?_nil (p : Phrase c) : p.at? [] = some ⟨p⟩ := rfl

theorem at?_cons (p : Phrase c) (i : Nat) (address : Address) :
    p.at? (i :: address) = p.parts[i]?.bind fun part => part.phrase.at? address := rfl

/-- An address leads from a phrase to one in it and on from there. -/
theorem at?_append (p : Phrase c) (way address : Address) :
    p.at? (way ++ address) = (p.at? way).bind fun node => node.phrase.at? address := by
  induction way generalizing c p with
  | nil => rfl
  | cons i way ih =>
      rw [List.cons_append, at?_cons, at?_cons]
      cases p.parts[i]? with
      | none => rfl
      | some part => exact ih part.phrase

end Phrase

theorem flatMap_zipIdx {α β : Type} (f : α → List β) (l : List α) :
    (l.zipIdx.flatMap fun indexed => f indexed.1) = l.flatMap f :=
  calc (l.zipIdx.flatMap fun indexed => f indexed.1)
      _ = (l.zipIdx.map Prod.fst).flatMap f := (List.flatMap_map ..).symm
      _ = l.flatMap f := congrArg (List.flatMap f) (List.zipIdx_map_fst 0 l)

/-- The numbers that count a list go up. -/
theorem pairwise_zipIdx {α : Type} (l : List α) :
    l.zipIdx.Pairwise fun a b => a.2 < b.2 := by
  have h := @List.pairwise_lt_range' 0 l.length 1
  rw [← List.zipIdx_map_snd 0 l, List.pairwise_map] at h
  exact h

/-- Addresses that lead on from one part after the other, after the address of the whole, come in
order if those from each part do. -/
theorem pairwise_addresses {α : Type} {l : List α} {f : α × Nat → List Address}
    (h : ∀ part ∈ l.zipIdx, (f part).Pairwise (· < ·)) :
    ([] :: l.zipIdx.flatMap fun part => (f part).map (part.2 :: ·)).Pairwise (· < ·) := by
  rw [List.pairwise_cons, List.pairwise_flatMap]
  refine ⟨?_, fun part hPart => ?_, ?_⟩
  · intro address hAddress
    obtain ⟨part, -, hAddress⟩ := List.mem_flatMap.mp hAddress
    obtain ⟨inner, -, rfl⟩ := List.mem_map.mp hAddress
    exact List.Lex.nil
  · rw [List.pairwise_map]
    exact (h part hPart).imp fun hlt => List.Lex.cons hlt
  · refine (pairwise_zipIdx l).imp fun hij x hx y hy => ?_
    obtain ⟨x, -, rfl⟩ := List.mem_map.mp hx
    obtain ⟨y, -, rfl⟩ := List.mem_map.mp hy
    exact List.Lex.rel hij

end SetupLint
