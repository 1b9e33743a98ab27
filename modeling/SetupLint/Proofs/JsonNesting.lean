import SetupLint.Proofs.JsonText

/-! How deeply a JSON text nests. It is told from the characters alone: at each of them some
arrays and objects are open, and brackets inside quotes open nothing. The text of a document
nests as deeply as the document. -/
namespace SetupLint.Json

/-- What the characters read so far leave open, and the most that was open at once. -/
structure Nesting where
  /-- Whether a quoted text is open. -/
  quoted : Bool := false
  /-- Whether a backslash was last. -/
  escaped : Bool := false
  /-- How many arrays and objects are open. -/
  opened : Nat := 0
  most : Nat := 0

namespace Nesting

/-- Go on with a character. -/
def step (n : Nesting) (c : Char) : Nesting :=
  if n.quoted then
    if n.escaped then { n with escaped := false }
    else if c = '\\' then { n with escaped := true }
    else if c = '"' then { n with quoted := false }
    else n
  else if c = '"' then { n with quoted := true }
  else if c = '[' ∨ c = '\x7b' then
    { n with opened := n.opened + 1, most := max n.most (n.opened + 1) }
  else if c = ']' ∨ c = '\x7d' then { n with opened := n.opened - 1 }
  else n

end Nesting

/-- How many arrays and objects are open at the deepest point of a text. -/
def nesting (text : String) : Nat := (text.toList.foldl Nesting.step {}).most

/-- A character that opens and closes nothing, outside quotes. -/
def IsPlain (c : Char) : Prop := c ∉ ['"', '[', ']', '\x7b', '\x7d']

instance (c : Char) : Decidable (IsPlain c) := inferInstanceAs (Decidable (c ∉ _))

namespace Nesting

variable {opened most : Nat}

/-- Plain characters leave the nesting as it is. -/
theorem foldl_isPlain {cs : List Char} (h : ∀ c ∈ cs, IsPlain c) :
    cs.foldl step ⟨false, false, opened, most⟩ = ⟨false, false, opened, most⟩ := by
  induction cs with
  | nil => rfl
  | cons c cs ih =>
      have hPlain : IsPlain c := h c List.mem_cons_self
      have hStep : step ⟨false, false, opened, most⟩ c = ⟨false, false, opened, most⟩ := by
        simp only [IsPlain, List.mem_cons, List.not_mem_nil, or_false, not_or] at hPlain
        simp [step, hPlain]
      rw [List.foldl_cons, hStep]
      exact ih fun d hd => h d (List.mem_cons_of_mem c hd)

/-- Inside quotes the escape of a character opens and closes nothing. -/
theorem foldl_escape (c : Char) :
    (escape c).foldl step ⟨true, false, opened, most⟩ = ⟨true, false, opened, most⟩ := by
  unfold escape
  iterate 7
    split
    · rfl
  split
  · next h =>
      have hDigits : ∀ n < 16, hexDigit n ≠ '\\' ∧ hexDigit n ≠ '"' := by decide
      have hFirst := hDigits (c.toNat / 16) (by omega)
      have hSecond := hDigits (c.toNat % 16) (by omega)
      simp [step, hFirst, hSecond]
  · next hQuote hBackslash _ _ _ _ _ _ => simp [step, hQuote, hBackslash]

/-- A quoted text opens and closes nothing, whatever is in it. -/
theorem foldl_quote (s : String) :
    (quote s).foldl step ⟨false, false, opened, most⟩ = ⟨false, false, opened, most⟩ := by
  have hContent : ∀ cs : List Char, (cs.flatMap escape).foldl step ⟨true, false, opened, most⟩ =
      ⟨true, false, opened, most⟩ := by
    intro cs
    induction cs with
    | nil => rfl
    | cons c cs ih => rw [List.flatMap_cons, List.foldl_append, foldl_escape, ih]
  have hOpen : step ⟨false, false, opened, most⟩ '"' = ⟨true, false, opened, most⟩ := rfl
  rw [quote, List.foldl_cons, hOpen, List.foldl_append, hContent]
  rfl

/-- Brackets around what nests to a depth nest one deeper. -/
theorem foldl_bracketed {first last : Char} (hFirst : first = '[' ∨ first = '\x7b')
    (hLast : last = ']' ∨ last = '\x7d') {inner gap : List Char}
    (hGap : ∀ c ∈ gap, IsPlain c) {depth : Nat}
    (hInner : inner.foldl step ⟨false, false, opened + 1, max most (opened + 1)⟩ =
      ⟨false, false, opened + 1, max (max most (opened + 1)) (opened + 1 + depth)⟩) :
    (first :: (inner ++ gap ++ [last])).foldl step ⟨false, false, opened, most⟩ =
      ⟨false, false, opened, max most (opened + (depth + 1))⟩ := by
  have hOpen : step ⟨false, false, opened, most⟩ first =
      ⟨false, false, opened + 1, max most (opened + 1)⟩ := by
    rcases hFirst with rfl | rfl <;> rfl
  have hClose (most : Nat) : step ⟨false, false, opened + 1, most⟩ last =
      ⟨false, false, opened, most⟩ := by
    rcases hLast with rfl | rfl <;> rfl
  rw [List.foldl_cons, hOpen, List.foldl_append, List.foldl_append, hInner, foldl_isPlain hGap,
    List.foldl_cons, hClose, List.foldl_nil]
  congr 1
  omega

end Nesting

theorem isPlain_of_isGap {c : Char} (h : isGap c = true) : IsPlain c := by
  rcases isGap_iff.mp h with rfl | rfl | rfl | rfl <;> decide

theorem isPlain_of_isDigit {c : Char} (h : c.isDigit = true) : IsPlain c := by
  intro hMem
  simp only [List.mem_cons, List.not_mem_nil, or_false] at hMem
  rcases hMem with rfl | rfl | rfl | rfl | rfl <;> cases h

/-- The text of a number opens and closes nothing. -/
theorem isPlain_render {n : Numeral} (h : n.IsDigital) : ∀ c ∈ n.render, IsPlain c := by
  have hDigits {cs : List Char} (h : ∀ c ∈ cs, c.isDigit = true) : ∀ c ∈ cs, IsPlain c :=
    fun c hc => isPlain_of_isDigit (h c hc)
  have hToDigits (n : Nat) : ∀ c ∈ Nat.toDigits 10 n, IsPlain c :=
    hDigits fun _ hc => Nat.isDigit_of_mem_toDigits (by decide) (by decide) hc
  have hSigns : IsPlain '-' ∧ IsPlain '+' ∧ IsPlain '.' ∧ IsPlain 'e' := by decide
  unfold Numeral.render
  simp only [List.forall_mem_append]
  refine ⟨⟨⟨?_, hDigits h.whole⟩, ?_⟩, ?_⟩
  · split <;> simp [hSigns]
  · split
    · simp
    · exact List.forall_mem_cons.mpr ⟨hSigns.2.2.1, hDigits h.fraction⟩
  · split
    · simp
    · refine List.forall_mem_cons.mpr ⟨hSigns.2.2.2, List.forall_mem_cons.mpr ⟨?_, hToDigits _⟩⟩
      split <;> simp [hSigns]

section Render

variable {layout : Layout} (hLayout : layout.IsBlank)
include hLayout

theorem Layout.IsBlank.isPlain_newline (depth : Nat) : ∀ c ∈ layout.newline depth, IsPlain c :=
  fun c hc => isPlain_of_isGap (hLayout.newline depth c hc)

theorem Layout.IsBlank.isPlain_ending (done : Bool) (depth : Nat) :
    ∀ c ∈ (if done then [] else layout.newline depth), IsPlain c :=
  fun c hc => isPlain_of_isGap (hLayout.ending done depth c hc)

theorem Layout.IsBlank.isPlain_colon : ∀ c ∈ layout.colon, IsPlain c := by
  obtain ⟨gap, hColon, hGap⟩ := hLayout.colon
  rw [hColon]
  intro c hc
  rcases List.mem_cons.mp hc with rfl | hc
  · decide
  · exact isPlain_of_isGap (hGap c hc)

/-- What is printed of a tree opens as much as the tree is deep, and closes it again. -/
theorem foldl_render {p : Part} {tree : Json Empty p} (h : tree.AllNumbers Numeral.IsDigital)
    (depth : Nat)
    {opened most : Nat} (hMost : opened ≤ most) :
    (render layout depth tree).foldl Nesting.step ⟨false, false, opened, most⟩ =
      ⟨false, false, opened, max most (opened + tree.depth)⟩ := by
  have hSeparator : ∀ done : Bool, ∀ c ∈ (if done then [] else [',']), IsPlain c := by
    simp [IsPlain]
  have hLeaf {opened most : Nat} (hMost : opened ≤ most) :
      (⟨false, false, opened, most⟩ : Nesting) = ⟨false, false, opened, max most (opened + 0)⟩ := by
    rw [Nat.add_zero, Nat.max_eq_left hMost]
  induction tree generalizing depth opened most with
  | null =>
      rw [render, Nesting.foldl_isPlain (by simp [IsPlain])]
      exact hLeaf hMost
  | bool b =>
      have hPlain : ∀ c ∈ render layout depth (.bool b), IsPlain c := by
        cases b <;> simp [render, IsPlain]
      rw [Nesting.foldl_isPlain hPlain]
      exact hLeaf hMost
  | number n =>
      rw [render, Nesting.foldl_isPlain (isPlain_render h)]
      exact hLeaf hMost
  | text s =>
      rw [render, Nesting.foldl_quote]
      exact hLeaf hMost
  | array items ih =>
      rw [render]
      exact Nesting.foldl_bracketed (Or.inl rfl) (Or.inl rfl) (hLayout.isPlain_ending _ _)
        (ih h (depth + 1) (by omega))
  | object members ih =>
      rw [render]
      exact Nesting.foldl_bracketed (Or.inr rfl) (Or.inr rfl) (hLayout.isPlain_ending _ _)
        (ih h (depth + 1) (by omega))
  | noItems => exact hLeaf hMost
  | item value rest ihValue ihRest =>
      rw [render, List.foldl_append, List.foldl_append, List.foldl_append,
        Nesting.foldl_isPlain (hLayout.isPlain_newline depth), ihValue h.1 depth hMost,
        Nesting.foldl_isPlain (hSeparator _), ihRest h.2 depth (by omega), Json.depth]
      congr 1
      omega
  | noMembers => exact hLeaf hMost
  | member key value rest ihValue ihRest =>
      rw [render, List.foldl_append, List.foldl_append, List.foldl_append, List.foldl_append,
        List.foldl_append, Nesting.foldl_isPlain (hLayout.isPlain_newline depth),
        Nesting.foldl_quote, Nesting.foldl_isPlain hLayout.isPlain_colon, ihValue h.1 depth hMost,
        Nesting.foldl_isPlain (hSeparator _), ihRest h.2 depth (by omega), Json.depth]
      congr 1
      omega
  | unkeyed why => cases why
  | fault why => cases why

end Render

/-- The text of a document nests as deeply as the document. -/
theorem nesting_pretty_of_isDigital {document : Document}
    (h : document.AllNumbers Numeral.IsDigital) : nesting document.pretty = document.depth := by
  simp [nesting, pretty, foldl_render isBlank_pretty h 0 (Nat.le_refl 0)]

/-- The text of a document nests as deep as the document. -/
theorem nesting_pretty {document : Document} (h : document.IsExact) :
    nesting document.pretty = document.depth :=
  nesting_pretty_of_isDigital (h.allNumbers fun _ => Numeral.IsExact.isDigital)

end SetupLint.Json
