/-! Byte offsets into a text. Spans and edits count the bytes of the UTF-8
form, while the text itself is a list of characters. A text can be cut only
where a character ends, so every cut at a byte offset may fail. -/
namespace SetupLint.Text

/-- Length in bytes of the UTF-8 form. -/
def byteLength : List Char → Nat
  | [] => 0
  | c :: cs => c.utf8Size + byteLength cs

/-- Cut after `n` bytes. There is no cut inside a character or past the end. -/
def cut? : Nat → List Char → Option (List Char × List Char)
  | 0, cs => some ([], cs)
  | _ + 1, [] => none
  | n + 1, c :: cs =>
    if c.utf8Size ≤ n + 1 then
      (cut? (n + 1 - c.utf8Size) cs).map fun (left, right) => (c :: left, right)
    else none

/-- The piece from byte `start` up to byte `stop`, when both are cuts of the
text in this order. -/
def slice? (start stop : Nat) (cs : List Char) : Option (List Char) :=
  if start ≤ stop then
    (cut? start cs).bind fun (_, right) => (cut? (stop - start) right).map (·.1)
  else none

/-- The number of characters that begin before byte `n`. -/
def countBefore : Nat → List Char → Nat
  | 0, _ => 0
  | _, [] => 0
  | n + 1, c :: cs => 1 + countBefore (n + 1 - c.utf8Size) cs

@[simp]
theorem cut?_zero (cs : List Char) : cut? 0 cs = some ([], cs) := by
  cases cs <;> rfl

/-- A cut loses nothing. -/
theorem append_of_cut? {n : Nat} {cs left right : List Char}
    (h : cut? n cs = some (left, right)) : left ++ right = cs := by
  induction cs generalizing n left with
  | nil =>
    cases n with
    | zero => simp_all
    | succ n => simp [cut?] at h
  | cons c cs ih =>
    cases n with
    | zero => simp at h; simp [← h.1, ← h.2]
    | succ n =>
      simp only [cut?] at h
      split at h
      · obtain ⟨⟨l, r⟩, hl, he⟩ := Option.map_eq_some_iff.1 h
        simp only [Prod.mk.injEq] at he
        obtain ⟨rfl, rfl⟩ := he
        simp [ih hl]
      · simp at h

/-- The left part of a cut after `n` bytes has `n` bytes. -/
theorem byteLength_of_cut? {n : Nat} {cs left right : List Char}
    (h : cut? n cs = some (left, right)) : byteLength left = n := by
  induction cs generalizing n left with
  | nil =>
    cases n with
    | zero =>
      simp only [cut?_zero, Option.some.injEq, Prod.mk.injEq] at h
      simp [← h.1, byteLength]
    | succ n => simp [cut?] at h
  | cons c cs ih =>
    cases n with
    | zero =>
      simp only [cut?_zero, Option.some.injEq, Prod.mk.injEq] at h
      simp [← h.1, byteLength]
    | succ n =>
      simp only [cut?] at h
      split at h
      · obtain ⟨⟨l, r⟩, hl, he⟩ := Option.map_eq_some_iff.1 h
        simp only [Prod.mk.injEq] at he
        obtain ⟨rfl, rfl⟩ := he
        simp only [byteLength, ih hl]
        omega
      · simp at h

end SetupLint.Text
