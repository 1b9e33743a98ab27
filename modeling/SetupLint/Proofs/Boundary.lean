import SetupLint.Proofs.LineNumber

/-! Where a text can be cut. A cut takes a number of bytes, and the text has one there iff its first
characters have so many bytes together. -/
namespace SetupLint.Text

/-- An offset is between two characters of a text, at its start or at its end. -/
def IsBoundary (cs : List Char) (offset : Nat) : Prop :=
  ∃ left right, cs = left ++ right ∧ byteLength left = offset

/-- The bytes of two texts add up. -/
theorem byteLength_append (left right : List Char) :
    byteLength (left ++ right) = byteLength left + byteLength right := by
  induction left with
  | nil => simp [byteLength]
  | cons c left ih => simp [byteLength, ih, Nat.add_assoc]

/-- Every character has a byte. -/
theorem eq_nil_of_byteLength_eq_zero {cs : List Char} (h : byteLength cs = 0) : cs = [] := by
  cases cs with
  | nil => rfl
  | cons c cs =>
      have hSize := Char.utf8Size_pos c
      simp only [byteLength] at h
      omega

theorem utf8_append (left right : List Char) : utf8 (left ++ right) = utf8 left ++ utf8 right :=
  List.flatMap_append

/-- Cutting behind the first of two texts gives both. -/
theorem cut?_byteLength (left right : List Char) :
    cut? (byteLength left) (left ++ right) = some (left, right) := by
  induction left with
  | nil => exact cut?_zero right
  | cons c left ih =>
      have hSize := Char.utf8Size_pos c
      obtain ⟨n, hn⟩ : ∃ n, c.utf8Size + byteLength left = n + 1 :=
        ⟨c.utf8Size + byteLength left - 1, by omega⟩
      have hRest : n + 1 - c.utf8Size = byteLength left := by omega
      rw [byteLength, hn, List.cons_append, cut?, if_pos (by omega), hRest, ih]
      rfl

/-- A text can be cut just at its boundaries. -/
theorem isSome_cut?_iff {cs : List Char} {offset : Nat} :
    (cut? offset cs).isSome ↔ IsBoundary cs offset := by
  rw [Option.isSome_iff_exists]
  constructor
  · rintro ⟨⟨left, right⟩, hCut⟩
    exact ⟨left, right, (append_of_cut? hCut).symm, byteLength_of_cut? hCut⟩
  · rintro ⟨left, right, rfl, rfl⟩
    exact ⟨_, cut?_byteLength left right⟩

instance (cs : List Char) (offset : Nat) : Decidable (IsBoundary cs offset) :=
  decidable_of_iff _ isSome_cut?_iff

theorem isBoundary_zero (cs : List Char) : IsBoundary cs 0 := ⟨[], cs, rfl, rfl⟩

/-- A boundary of a text that is not behind its first part is one of this part. -/
theorem IsBoundary.of_le {left right : List Char} {offset : Nat}
    (h : IsBoundary (left ++ right) offset) (hLe : offset ≤ byteLength left) :
    IsBoundary left offset := by
  obtain ⟨kept, rest, hText, rfl⟩ := h
  rcases List.append_eq_append_iff.mp hText with ⟨extra, rfl, -⟩ | ⟨extra, rfl, -⟩
  · rw [byteLength_append] at hLe
    have hExtra : byteLength extra = 0 := by omega
    obtain rfl := eq_nil_of_byteLength_eq_zero hExtra
    exact ⟨left, [], (List.append_nil left).symm, by rw [List.append_nil]⟩
  · exact ⟨kept, extra, rfl, rfl⟩

end SetupLint.Text
