import Mathlib.Data.List.TakeWhile
import SetupLint.Text.Split

/-! What a cut of a text is, in terms of the text around the cut: the first occurrence of a
mark, the pieces between separators, and the runs that no separator interrupts. -/
namespace SetupLint.Text

/-- A text is cut by the first occurrence of a mark in it. -/
structure CutAt (mark cs left right : List Char) : Prop where
  append : cs = left ++ mark ++ right
  first : ∀ left' right', cs = left' ++ mark ++ right' → left.length ≤ left'.length

/-- A piece of a text between two gaps or ends, without a gap in it. -/
structure MaximalRun (gap : Char → Bool) (cs run : List Char) : Prop where
  nonempty : run ≠ []
  unbroken : ∀ c ∈ run, gap c = false
  bounded : ∃ left right, cs = left ++ run ++ right ∧ (∀ c ∈ left.getLast?, gap c = true) ∧
    ∀ c ∈ right.head?, gap c = true

/-- What is behind a start is the rest of a text that starts so. -/
theorem behind?_eq_some_iff {start cs rest : List Char} :
    behind? start cs = some rest ↔ cs = start ++ rest := by
  unfold behind?
  constructor
  · intro h
    split at h
    · rename_i hPrefix
      obtain ⟨tail, rfl⟩ := List.isPrefixOf_iff_prefix.mp hPrefix
      rw [List.drop_left] at h
      cases h
      rfl
    · cases h
  · rintro rfl
    rw [if_pos (List.isPrefixOf_iff_prefix.mpr (List.prefix_append ..)), List.drop_left]

theorem behind?_eq_none_iff {start cs : List Char} :
    behind? start cs = none ↔ ¬ start <+: cs := by
  unfold behind?
  rw [← List.isPrefixOf_iff_prefix]
  split <;> simp [*]

/-- A mark at the start of a text is its first occurrence. -/
theorem cutAt_start {mark right : List Char} : CutAt mark (mark ++ right) [] right where
  append := rfl
  first := fun _ _ _ => Nat.zero_le _

/-- Before a character at which no mark starts the first occurrence moves on by one. -/
theorem cutAt_cons {mark cs left right : List Char} {c : Char} (h : ¬ mark <+: c :: cs) :
    CutAt mark (c :: cs) (c :: left) right ↔ CutAt mark cs left right := by
  constructor
  · rintro ⟨hAppend, hFirst⟩
    refine ⟨(List.cons.inj hAppend).2, fun left' right' hEq => ?_⟩
    have hLe := hFirst (c :: left') right' (by rw [hEq]; rfl)
    simpa using hLe
  · rintro ⟨hAppend, hFirst⟩
    refine ⟨by rw [hAppend]; rfl, fun left' right' hEq => ?_⟩
    cases left' with
    | nil => exact absurd ⟨right', hEq.symm⟩ h
    | cons d left' =>
        have hLe := hFirst left' right' (List.cons.inj hEq).2
        simpa using hLe

/-- A cut at the first occurrence is a single one. -/
theorem CutAt.unique {mark cs left right left' right' : List Char} (h : CutAt mark cs left right)
    (h' : CutAt mark cs left' right') : left = left' ∧ right = right' := by
  have hLength : left.length = left'.length :=
    Nat.le_antisymm (h.first _ _ h'.append) (h'.first _ _ h.append)
  have hEq := h.append.symm.trans h'.append
  rw [List.append_assoc, List.append_assoc] at hEq
  obtain ⟨hLeft, hRest⟩ := List.append_inj hEq hLength
  exact ⟨hLeft, List.append_cancel_left hRest⟩

/-- The text behind a mark is the one behind its first occurrence. -/
theorem after?_eq_some_iff {mark cs right : List Char} :
    after? mark cs = some right ↔ ∃ left, CutAt mark cs left right := by
  induction cs with
  | nil =>
      unfold after?
      constructor
      · intro h
        split at h
        · rename_i hEmpty
          rw [List.isEmpty_iff.mp hEmpty]
          cases h
          exact ⟨[], cutAt_start⟩
        · cases h
      · rintro ⟨left, hCut⟩
        have hEq := hCut.append
        simp_all
  | cons c cs ih =>
      unfold after?
      split
      · rename_i hPrefix
        obtain ⟨rest, hRest⟩ := List.isPrefixOf_iff_prefix.mp hPrefix
        rw [← hRest, List.drop_left]
        constructor
        · intro h
          cases h
          exact ⟨[], cutAt_start⟩
        · rintro ⟨left, hCut⟩
          rw [(cutAt_start.unique hCut).2]
      · rename_i hPrefix
        rw [List.isPrefixOf_iff_prefix] at hPrefix
        rw [ih]
        constructor
        · rintro ⟨left, hCut⟩
          exact ⟨c :: left, (cutAt_cons hPrefix).mpr hCut⟩
        · rintro ⟨left, hCut⟩
          cases left with
          | nil => exact absurd ⟨right, hCut.append.symm⟩ hPrefix
          | cons d left =>
              obtain rfl : c = d := (List.cons.inj hCut.append).1
              exact ⟨left, (cutAt_cons hPrefix).mp hCut⟩

/-- A mark that occurs has a first occurrence. -/
theorem contains_iff {mark cs : List Char} : contains mark cs = true ↔ mark <:+: cs := by
  unfold contains
  constructor
  · intro h
    obtain ⟨right, hRight⟩ := Option.isSome_iff_exists.mp h
    obtain ⟨left, hCut⟩ := after?_eq_some_iff.mp hRight
    exact ⟨left, right, hCut.append.symm⟩
  · rintro ⟨left, right, rfl⟩
    induction left with
    | nil =>
        rw [Option.isSome_iff_exists]
        exact ⟨right, after?_eq_some_iff.mpr ⟨[], cutAt_start⟩⟩
    | cons c left ih =>
        rw [List.cons_append, List.cons_append, after?]
        split
        · rfl
        · exact ih

/-- The text before a mark is the one before its first occurrence. -/
theorem CutAt.before_eq {mark cs left right : List Char} (h : CutAt mark cs left right) :
    before mark cs = left := by
  induction cs generalizing left with
  | nil =>
      have hEq := h.append
      simp_all [before]
  | cons c cs ih =>
      unfold before
      split
      · rename_i hPrefix
        obtain ⟨rest, hRest⟩ := List.isPrefixOf_iff_prefix.mp hPrefix
        rw [← hRest] at h
        exact (cutAt_start.unique h).1
      · rename_i hPrefix
        rw [List.isPrefixOf_iff_prefix] at hPrefix
        cases left with
        | nil => exact absurd ⟨right, h.append.symm⟩ hPrefix
        | cons d left =>
            obtain rfl : c = d := (List.cons.inj h.append).1
            rw [ih ((cutAt_cons hPrefix).mp h)]

/-- Without the mark all of the text stands before it. -/
theorem before_eq_self {mark cs : List Char} (h : ¬ mark <:+: cs) : before mark cs = cs := by
  induction cs with
  | nil => rfl
  | cons c cs ih =>
      have hPrefix : ¬ mark.isPrefixOf (c :: cs) = true := by
        rw [List.isPrefixOf_iff_prefix]
        exact fun hPrefix => h hPrefix.isInfix
      rw [before, if_neg hPrefix, ih fun hInfix => h (List.infix_cons hInfix)]

/-- The pieces are those of the library. -/
theorem pieces_eq_splitOnP (gap : Char → Bool) (cs : List Char) :
    pieces gap cs = cs.splitOnP gap := by
  induction cs with
  | nil => rfl
  | cons c cs ih =>
      rw [pieces, List.splitOnP_cons_eq_if_modifyHead, ih]
      split
      · rfl
      · cases hPieces : cs.splitOnP gap with
        | nil => exact absurd hPieces (List.splitOnP_ne_nil gap cs)
        | cons => rfl

theorem lines_eq_splitOn (cs : List Char) : lines cs = cs.splitOn '\n' := by
  rw [lines, pieces_eq_splitOnP, List.splitOn_eq_splitOnP]

/-- There is one piece more than there are separators. -/
theorem length_pieces (gap : Char → Bool) (cs : List Char) :
    (pieces gap cs).length = cs.countP gap + 1 := by
  induction cs with
  | nil => rfl
  | cons c cs ih =>
      rw [pieces, List.countP_cons]
      by_cases hGap : gap c = true
      · simp only [hGap, if_true, List.length_cons, ih]
      · simp only [hGap, if_false, Bool.false_eq_true, Nat.add_zero, ← ih]
        cases hPieces : pieces gap cs with
        | nil => exact absurd hPieces (pieces_ne_nil gap cs)
        | cons => rfl

/-- A piece has no separator in it, and separators or ends of the text around it. -/
theorem bounded_of_mem_splitOnP {gap : Char → Bool} {cs piece : List Char}
    (h : piece ∈ cs.splitOnP gap) :
    (∀ c ∈ piece, gap c = false) ∧
      ∃ left right, cs = left ++ piece ++ right ∧ (∀ c ∈ left.getLast?, gap c = true) ∧
        ∀ c ∈ right.head?, gap c = true := by
  -- cut the text at its first separator, as long as there is one
  induction hLength : cs.length using Nat.strongRecOn generalizing cs with
  | ind n ih =>
      obtain ⟨first, rest, rfl, hFirst, hRest⟩ : ∃ first rest, cs = first ++ rest ∧
          (∀ c ∈ first, gap c = false) ∧ ∀ c ∈ rest.head?, gap c = true :=
        ⟨cs.takeWhile (!gap ·), cs.dropWhile (!gap ·), List.takeWhile_append_dropWhile.symm,
          fun c hc => by simpa using List.mem_takeWhile_imp hc,
          fun c hc => by
            have h := List.head?_dropWhile_not (!gap ·) cs
            rw [Option.mem_def.mp hc] at h
            simpa using h⟩
      cases rest with
      | nil =>
          rw [List.append_nil] at h ⊢
          rw [List.splitOnP_eq_singleton hFirst, List.mem_singleton] at h
          rw [h]
          exact ⟨hFirst, [], [], by simp, by simp, by simp⟩
      | cons separator rest =>
          have hSeparator : gap separator = true := hRest separator rfl
          rw [List.splitOnP_append_cons_of_forall_mem hFirst separator hSeparator,
            List.mem_cons] at h
          rcases h with rfl | h
          · exact ⟨hFirst, [], separator :: rest, by simp, by simp, by simpa using hSeparator⟩
          · obtain ⟨hPiece, left, right, rfl, hLeft, hRight⟩ :=
              ih rest.length (by rw [← hLength]; simp; omega) h rfl
            refine ⟨hPiece, first ++ separator :: left, right, by simp, ?_, hRight⟩
            intro c hc
            cases left with
            | nil =>
                rw [List.getLast?_concat] at hc
                cases hc
                exact hSeparator
            | cons d left =>
                rw [List.getLast?_append, List.getLast?_cons_cons] at hc
                simp only [List.getLast?_cons, Option.mem_def] at hc hLeft
                exact hLeft c hc

/-- What stands between separators, or between a separator and an end, is a piece. -/
theorem mem_splitOnP_of_bounded {gap : Char → Bool} {left piece right : List Char}
    (hPiece : ∀ c ∈ piece, gap c = false) (hLeft : ∀ c ∈ left.getLast?, gap c = true)
    (hRight : ∀ c ∈ right.head?, gap c = true) :
    piece ∈ (left ++ piece ++ right).splitOnP gap := by
  have hPieceRight : piece ∈ (piece ++ right).splitOnP gap := by
    cases right with
    | nil =>
        rw [List.append_nil, List.splitOnP_eq_singleton hPiece]
        exact List.mem_cons_self
    | cons separator right =>
        rw [List.splitOnP_append_cons_of_forall_mem hPiece separator (hRight separator rfl)]
        exact List.mem_cons_self
  rcases List.eq_nil_or_concat left with rfl | ⟨left, separator, rfl⟩
  · exact hPieceRight
  · have hSeparator : gap separator = true := hLeft separator (by simp)
    have hEq : left.concat separator ++ piece ++ right =
        left ++ separator :: (piece ++ right) := by
      simp
    rw [hEq, List.splitOnP_append_cons _ _ hSeparator]
    exact List.mem_append_right _ hPieceRight

/-- A piece between separators is unbroken and stands between two of them or the ends. -/
theorem mem_pieces_iff {gap : Char → Bool} {cs piece : List Char} :
    piece ∈ pieces gap cs ↔ (∀ c ∈ piece, gap c = false) ∧
      ∃ left right, cs = left ++ piece ++ right ∧ (∀ c ∈ left.getLast?, gap c = true) ∧
        ∀ c ∈ right.head?, gap c = true := by
  rw [pieces_eq_splitOnP]
  constructor
  · exact bounded_of_mem_splitOnP
  · rintro ⟨hPiece, left, right, rfl, hLeft, hRight⟩
    exact mem_splitOnP_of_bounded hPiece hLeft hRight

/-- The runs of a text are its maximal runs. -/
theorem mem_runs_iff {gap : Char → Bool} {cs run : List Char} :
    run ∈ runs gap cs ↔ MaximalRun gap cs run := by
  unfold runs
  rw [List.mem_filter, mem_pieces_iff]
  constructor
  · rintro ⟨⟨hUnbroken, hBounded⟩, hNonempty⟩
    exact ⟨by simpa using hNonempty, hUnbroken, hBounded⟩
  · rintro ⟨hNonempty, hUnbroken, hBounded⟩
    exact ⟨⟨hUnbroken, hBounded⟩, by simpa using hNonempty⟩

/-- A gap at the end of a text adds no run. -/
theorem runs_concat {gap : Char → Bool} {c : Char} (hGap : gap c = true) (cs : List Char) :
    runs gap (cs ++ [c]) = runs gap cs := by
  unfold runs
  rw [pieces_eq_splitOnP, pieces_eq_splitOnP, List.splitOnP_append_cons _ _ hGap,
    List.filter_append]
  simp

/-- A character that a mark does not have cannot make the mark start a text. -/
theorem prefix_concat_iff_of_not_mem {mark : List Char} {c : Char} (h : c ∉ mark)
    (cs : List Char) : mark <+: cs ++ [c] ↔ mark <+: cs := by
  rw [List.prefix_concat_iff, or_iff_right]
  rintro rfl
  exact h (List.mem_append_right _ List.mem_cons_self)

/-- A last character that is not in the mark does not matter. -/
theorem behind?_concat {mark : List Char} {c : Char} (h : c ∉ mark) (cs : List Char) :
    behind? mark (cs ++ [c]) = (behind? mark cs).map (· ++ [c]) := by
  cases hBehind : behind? mark cs with
  | some rest =>
      rw [behind?_eq_some_iff.mp hBehind, Option.map_some, behind?_eq_some_iff, List.append_assoc]
  | none =>
      rw [Option.map_none, behind?_eq_none_iff, prefix_concat_iff_of_not_mem h]
      exact behind?_eq_none_iff.mp hBehind

theorem after?_cons (mark cs : List Char) (c : Char) :
    after? mark (c :: cs) = (behind? mark (c :: cs)).or (after? mark cs) := by
  rw [after?, behind?]
  split <;> rfl

/-- A last character that is not in the mark does not matter, wherever the mark is. -/
theorem after?_concat {mark : List Char} {c : Char} (h : c ∉ mark) (hMark : mark ≠ [])
    (cs : List Char) : after? mark (cs ++ [c]) = (after? mark cs).map (· ++ [c]) := by
  have hNil : after? mark [] = none := by
    rw [after?, if_neg (by simpa using hMark)]
  induction cs with
  | nil =>
      have hBehind : behind? mark [] = none := behind?_eq_none_iff.mpr (by simpa using hMark)
      have hConcat := behind?_concat h []
      rw [hBehind, List.nil_append] at hConcat
      rw [List.nil_append, after?_cons, hConcat, hNil]
      rfl
  | cons d cs ih =>
      rw [List.cons_append, after?_cons, after?_cons, ih, ← List.cons_append, behind?_concat h]
      cases behind? mark (d :: cs) <;> rfl

/-- A character that a mark does not have goes to the text before the mark or behind it. -/
theorem before_concat {mark : List Char} {c : Char} (h : c ∉ mark) (cs : List Char) :
    before mark (cs ++ [c]) = before mark cs ∨ before mark (cs ++ [c]) = before mark cs ++ [c] := by
  induction cs with
  | nil =>
      by_cases hPrefix : mark.isPrefixOf [c] = true
      · exact Or.inl (by simp [before, hPrefix])
      · exact Or.inr (by simp [before, hPrefix])
  | cons d cs ih =>
      have hPrefix : mark.isPrefixOf (d :: (cs ++ [c])) = mark.isPrefixOf (d :: cs) := by
        rw [Bool.eq_iff_iff, List.isPrefixOf_iff_prefix, List.isPrefixOf_iff_prefix]
        exact prefix_concat_iff_of_not_mem h (d :: cs)
      rw [List.cons_append, before, before, hPrefix]
      split
      · exact Or.inl rfl
      · rcases ih with hSame | hLonger
        · exact Or.inl (by rw [hSame])
        · exact Or.inr (by rw [hLonger, List.cons_append])

end SetupLint.Text
