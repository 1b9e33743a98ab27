import Mathlib.Data.List.DropRight
import SetupLint.Proofs.Boundary

/-! The position of a byte offset. Its line is the number of line feeds before the offset and its
column the number of characters behind the last of them. All depends on the characters that begin
before the offset: at a boundary they are the text in front of it, an offset inside a character has
this one among them, and behind the end they are the whole text. The starts of the lines have to
fit into the index, as they do in every text that is shorter than `2 ^ 32` bytes. -/
namespace SetupLint.Text

/-- The characters of a text that begin before a byte offset. -/
def reached (offset : Nat) (cs : List Char) : List Char := cs.take (countBefore offset cs)

/-- The characters behind the last line feed of a text. -/
def lastLine (cs : List Char) : List Char := cs.rtakeWhile (· ≠ '\n')

/-- The position right behind a text. -/
def Position.behind (cs : List Char) : Position := ⟨cs.count '\n', (lastLine cs).length⟩

/-- A position comes before another one, in an earlier line or further left in the same one. -/
def Position.Before (p q : Position) : Prop :=
  p.line < q.line ∨ p.line = q.line ∧ p.column < q.column

namespace LineIndex

/-- The offset of a position: where its line starts, and then the bytes of as many characters of
the line as the column counts. -/
def offset? (index : LineIndex) (cs : List Char) (p : Position) : Option Nat :=
  index.starts[p.line]?.bind fun start =>
    (cut? start.toNat cs).map fun (_, rest) =>
      start.toNat + byteLength ((rest.takeWhile (· ≠ '\n')).take p.column)

/-- An index gives the positions in a text. -/
structure IsExact (index : LineIndex) (cs : List Char) : Prop where
  /-- The line of any offset is the number of line feeds before it. -/
  line (offset : Nat) : index.lineOf offset = breaksBefore offset cs
  /-- At a boundary the line is the number of line feeds before it, and the column is the number of
  characters behind the last of these. -/
  boundary {left right : List Char} (text : cs = left ++ right) :
    index.position? cs (byteLength left) = some ⟨left.count '\n', (lastLine left).length⟩
  /-- Of two boundaries, the later one has the later position. -/
  increasing {first second : Nat} {p q : Position} (first_boundary : IsBoundary cs first)
    (second_boundary : IsBoundary cs second) (lt : first < second)
    (first_at : index.position? cs first = some p)
    (second_at : index.position? cs second = some q) : p.Before q
  /-- A boundary can be told from its position. -/
  invertible {offset : Nat} {p : Position} (offset_boundary : IsBoundary cs offset)
    (offset_at : index.position? cs offset = some p) : index.offset? cs p = some offset
  /-- Behind the end all is at the end. -/
  past_end {offset : Nat} (le : byteLength cs ≤ offset) :
    index.position? cs offset = index.position? cs (byteLength cs)
  /-- An offset inside a character is taken for the one right behind the character. -/
  inside {left right : List Char} {c : Char} {offset : Nat} (text : cs = left ++ c :: right)
    (behind : byteLength left < offset) (before : offset < byteLength left + c.utf8Size) :
    index.position? cs offset = index.position? cs (byteLength (left ++ [c]))
  /-- There is an answer for every offset into any text, also into another one. -/
  total (other : List Char) (offset : Nat) : (index.position? other offset).isSome

end LineIndex

/-! ### The characters before an offset -/

@[simp]
theorem countBefore_zero (cs : List Char) : countBefore 0 cs = 0 := by
  cases cs <;> rfl

@[simp]
theorem countBefore_nil (offset : Nat) : countBefore offset [] = 0 := by
  cases offset <;> rfl

theorem countBefore_cons {offset : Nat} (h : 0 < offset) (c : Char) (cs : List Char) :
    countBefore offset (c :: cs) = 1 + countBefore (offset - c.utf8Size) cs := by
  obtain ⟨n, rfl⟩ : ∃ n, offset = n + 1 := ⟨offset - 1, by omega⟩
  rfl

/-- No more characters begin than there are. -/
theorem countBefore_le_length (offset : Nat) (cs : List Char) :
    countBefore offset cs ≤ cs.length := by
  induction cs generalizing offset with
  | nil => simp
  | cons c cs ih =>
      rcases Nat.eq_zero_or_pos offset with rfl | hPositive
      · simp
      · have hRest := ih (offset - c.utf8Size)
        rw [countBefore_cons hPositive, List.length_cons]
        omega

/-- Before an offset that a text does not pass, all characters of the text begin. -/
theorem countBefore_append {offset : Nat} {left : List Char} (h : byteLength left ≤ offset)
    (right : List Char) :
    countBefore offset (left ++ right) =
      left.length + countBefore (offset - byteLength left) right := by
  induction left generalizing offset with
  | nil => simp [byteLength]
  | cons c left ih =>
      have hSize := Char.utf8Size_pos c
      rw [byteLength] at h
      rw [List.cons_append, countBefore_cons (by omega), ih (by omega), byteLength,
        List.length_cons, Nat.sub_sub]
      omega

/-- Before an offset inside a text, no character behind the text begins. -/
theorem countBefore_append_le {offset : Nat} {left : List Char} (h : offset ≤ byteLength left)
    (right : List Char) : countBefore offset (left ++ right) ≤ left.length := by
  induction left generalizing offset with
  | nil =>
      obtain rfl : offset = 0 := by simpa [byteLength] using h
      simp
  | cons c left ih =>
      rcases Nat.eq_zero_or_pos offset with rfl | hPositive
      · simp
      · rw [byteLength] at h
        have hRest : countBefore (offset - c.utf8Size) (left ++ right) ≤ left.length :=
          ih (by omega)
        rw [List.cons_append, countBefore_cons hPositive, List.length_cons]
        omega

/-- At the end of a text all its characters have begun. -/
theorem countBefore_of_byteLength_le {offset : Nat} {cs : List Char}
    (h : byteLength cs ≤ offset) : countBefore offset cs = cs.length := by
  simpa using countBefore_append h []

/-- An offset behind the end counts as the end. -/
theorem countBefore_min (offset : Nat) (cs : List Char) :
    countBefore (min offset (byteLength cs)) cs = countBefore offset cs := by
  rcases Nat.le_total offset (byteLength cs) with h | h
  · rw [Nat.min_eq_left h]
  · rw [Nat.min_eq_right h, countBefore_of_byteLength_le h,
      countBefore_of_byteLength_le (Nat.le_refl _)]

theorem length_reached (offset : Nat) (cs : List Char) :
    (reached offset cs).length = countBefore offset cs := by
  rw [reached, List.length_take, Nat.min_eq_left (countBefore_le_length offset cs)]

/-- At a boundary just the characters before it have begun. -/
theorem reached_boundary (left right : List Char) :
    reached (byteLength left) (left ++ right) = left := by
  rw [reached, countBefore_append (Nat.le_refl _), Nat.sub_self, countBefore_zero, Nat.add_zero,
    List.take_left]

/-- Behind its first byte a character has begun. -/
theorem reached_inside {left : List Char} {c : Char} {offset : Nat}
    (hLeft : byteLength left < offset) (hRight : offset ≤ byteLength left + c.utf8Size)
    (right : List Char) : reached offset (left ++ c :: right) = left ++ [c] := by
  have hRest : offset - byteLength left - c.utf8Size = 0 := by omega
  rw [reached, countBefore_append (by omega), countBefore_cons (by omega), hRest,
    countBefore_zero, List.append_cons]
  exact List.take_left' (by simp)

theorem reached_of_byteLength_le {cs : List Char} {offset : Nat} (h : byteLength cs ≤ offset) :
    reached offset cs = cs := by
  rw [reached, countBefore_of_byteLength_le h, List.take_length]

/-- The line feeds before an offset are those among the characters that begin before it. -/
theorem breaksBefore_eq_count (offset : Nat) (cs : List Char) :
    breaksBefore offset cs = (reached offset cs).count '\n' := by
  induction cs generalizing offset with
  | nil => simp [breaksBefore, reached, utf8]
  | cons c cs ih =>
      rcases Nat.eq_zero_or_pos offset with rfl | hPositive
      · simp [breaksBefore, reached]
      · have hSplit : breaksBefore offset (c :: cs) =
            ((String.utf8EncodeChar c).take offset).count 0x0A +
              breaksBefore (offset - c.utf8Size) cs := by
          rw [breaksBefore, utf8, List.flatMap_cons, List.take_append, List.count_append,
            String.length_utf8EncodeChar]
          rfl
        have hReached : reached offset (c :: cs) = c :: reached (offset - c.utf8Size) cs := by
          rw [reached, countBefore_cons hPositive, Nat.add_comm 1, List.take_succ_cons, reached]
        rw [hSplit, ih, hReached, List.count_cons, Nat.add_comm]
        congr 1
        by_cases hBreak : c = '\n'
        · subst hBreak
          have hBytes : String.utf8EncodeChar '\n' = [0x0A] := rfl
          rw [hBytes, List.take_of_length_le hPositive]
          rfl
        · rw [List.count_eq_zero.mpr fun hMem =>
            not_mem_utf8EncodeChar hBreak (List.mem_of_mem_take hMem)]
          simp [hBreak]

/-! ### The start of a line -/

/-- A text in which every line has its line feed. -/
def IsEnded (cs : List Char) : Prop := cs = [] ∨ ∃ front, cs = front ++ ['\n']

theorem break_notMem_lastLine (cs : List Char) : '\n' ∉ lastLine cs := fun h => by
  simpa using List.mem_rtakeWhile_imp h

/-- Before its last line, a text has ended lines, and all its line feeds in them. -/
theorem exists_isEnded (cs : List Char) :
    ∃ ended, IsEnded ended ∧ cs = ended ++ lastLine cs ∧ cs.count '\n' = ended.count '\n' := by
  have hText : cs = cs.rdropWhile (· ≠ '\n') ++ lastLine cs :=
    List.rdropWhile_append_rtakeWhile.symm
  have hCount : cs.count '\n' = (cs.rdropWhile (· ≠ '\n')).count '\n' := by
    conv_lhs => rw [hText, List.count_append, List.count_eq_zero.mpr (break_notMem_lastLine cs),
      Nat.add_zero]
  refine ⟨cs.rdropWhile (· ≠ '\n'), ?_, hText, hCount⟩
  by_cases hEmpty : cs.rdropWhile (· ≠ '\n') = []
  · exact Or.inl hEmpty
  · have hLast : (cs.rdropWhile (· ≠ '\n')).getLast hEmpty = '\n' := by
      simpa using List.rdropWhile_last_not _ cs hEmpty
    have hSplit := List.dropLast_append_getLast hEmpty
    rw [hLast] at hSplit
    exact Or.inr ⟨_, hSplit.symm⟩

/-- The lines of the second of two texts start further on by the length of the first. -/
theorem startsAfterBreaks_append (base : Nat) (left right : List Char) :
    startsAfterBreaks base (left ++ right) =
      startsAfterBreaks base left ++ startsAfterBreaks (base + byteLength left) right := by
  induction left generalizing base with
  | nil => rfl
  | cons c left ih =>
      simp only [List.cons_append, startsAfterBreaks, byteLength, ih, Nat.add_assoc]
      split <;> rfl

/-- There is one line start for each line feed. -/
theorem length_startsAfterBreaks (base : Nat) (cs : List Char) :
    (startsAfterBreaks base cs).length = cs.count '\n' := by
  induction cs generalizing base with
  | nil => rfl
  | cons c cs ih =>
      rw [startsAfterBreaks, List.count_cons]
      by_cases hBreak : c = '\n' <;> simp [hBreak, ih]

/-- The line behind some ended lines starts where they end. -/
theorem LineIndex.starts_ofText {ended rest : List Char} (hEnded : IsEnded ended)
    (hSize : byteLength (ended ++ rest) < UInt32.size) :
    ∃ start, (ofText (ended ++ rest)).starts[ended.count '\n']? = some start ∧
      start.toNat = byteLength ended := by
  have hStart : (0 :: startsAfterBreaks 0 (ended ++ rest))[ended.count '\n']? =
      some (byteLength ended) := by
    rcases hEnded with rfl | ⟨front, rfl⟩
    · rfl
    · have hCount : (front ++ ['\n']).count '\n' = (startsAfterBreaks 0 front).length + 1 := by
        simp [length_startsAfterBreaks]
      have hBreak : startsAfterBreaks (0 + byteLength front) ('\n' :: rest) =
          byteLength (front ++ ['\n']) ::
            startsAfterBreaks (byteLength (front ++ ['\n'])) rest := by
        rw [Nat.zero_add, byteLength_append, startsAfterBreaks, if_pos rfl]
        rfl
      rw [hCount, List.append_assoc, List.singleton_append, List.getElem?_cons_succ,
        startsAfterBreaks_append, hBreak, List.getElem?_append_right (Nat.le_refl _), Nat.sub_self]
      rfl
  rw [← map_toNat_starts hSize, List.getElem?_map, Option.map_eq_some_iff] at hStart
  simpa only [Array.getElem?_toList] using hStart

/-! ### Positions -/

/-- Ended lines whose characters all begin before an offset do not pass it. -/
theorem byteLength_le_of_isEnded {ended rest : List Char} {offset : Nat} (hEnded : IsEnded ended)
    (hReached : ended.length ≤ countBefore offset (ended ++ rest)) :
    byteLength ended ≤ offset := by
  rcases hEnded with rfl | ⟨front, rfl⟩
  · exact Nat.zero_le offset
  · have hBreak : byteLength ['\n'] = 1 := rfl
    rw [byteLength_append, hBreak]
    by_contra hPassed
    -- otherwise the last line feed would not begin before the offset
    have hInside : offset ≤ byteLength front := by omega
    have hCount := countBefore_append_le hInside ('\n' :: rest)
    rw [List.append_assoc, List.singleton_append, List.length_append,
      List.length_singleton] at hReached
    omega

/-- The position of an offset is the one right behind the characters that begin before it. -/
theorem LineIndex.position?_ofText {cs : List Char} (hSize : byteLength cs < UInt32.size)
    (offset : Nat) :
    (ofText cs).position? cs offset = some (.behind (reached offset cs)) := by
  generalize hInside : min offset (byteLength cs) = inside
  have hReached : reached offset cs = reached inside cs := by
    rw [← hInside, reached, reached, countBefore_min]
  obtain ⟨ended, hEnded, hLeft, hLine⟩ := exists_isEnded (reached inside cs)
  have hText : cs = ended ++ (lastLine (reached inside cs) ++ cs.drop (countBefore inside cs)) := by
    rw [← List.append_assoc, ← hLeft, reached, List.take_append_drop]
  have hCount := length_reached inside cs
  rw [position?, hInside, hReached, lineOf_ofText hSize, breaksBefore_eq_count, hLine,
    Position.behind, hLine]
  rw [hLeft, List.length_append] at hCount
  generalize lastLine (reached inside cs) = line at hText hCount
  generalize cs.drop (countBefore inside cs) = right at hText
  subst hText
  have hPassed := byteLength_le_of_isEnded hEnded (Nat.le.intro hCount)
  rw [countBefore_append hPassed] at hCount
  obtain ⟨start, hStart, hNumber⟩ := starts_ofText hEnded hSize
  rw [hStart, Option.map_some, hNumber, cut?_byteLength]
  exact congrArg (fun column => some (Position.mk _ column)) (Nat.add_left_cancel hCount).symm

/-- The position of a boundary is the one right behind the text in front of it. -/
theorem LineIndex.position?_boundary {left right : List Char}
    (hSize : byteLength (left ++ right) < UInt32.size) :
    (ofText (left ++ right)).position? (left ++ right) (byteLength left) =
      some (.behind left) := by
  rw [position?_ofText hSize, reached_boundary]

/-- Text without a line feed goes on with the last line. -/
theorem lastLine_append {kept : List Char} (h : '\n' ∉ kept) (left : List Char) :
    lastLine (left ++ kept) = lastLine left ++ kept := by
  have hKept : ∀ c ∈ kept.reverse, decide (c ≠ '\n') = true := by
    intro c hc
    exact decide_eq_true fun hBreak => h (hBreak ▸ List.mem_reverse.mp hc)
  rw [lastLine, List.rtakeWhile, List.reverse_append, List.takeWhile_append_of_pos hKept,
    List.reverse_append, List.reverse_reverse]
  rfl

/-- More text has a later end. -/
theorem Position.before_behind_append {kept : List Char} (h : kept ≠ []) (left : List Char) :
    (behind left).Before (behind (left ++ kept)) := by
  simp only [Before, behind, List.count_append]
  by_cases hBreak : '\n' ∈ kept
  · have hCount := List.count_pos_iff.mpr hBreak
    exact Or.inl (by omega)
  · have hCount := List.count_eq_zero.mpr hBreak
    have hLength := List.length_pos_iff.mpr h
    rw [lastLine_append hBreak, List.length_append]
    exact Or.inr ⟨by omega, by omega⟩

/-- Of two boundaries of a text, the later one has more characters before it. -/
theorem IsBoundary.exists_kept {cs : List Char} {first second : Nat} (hFirst : IsBoundary cs first)
    (hSecond : IsBoundary cs second) (hLt : first < second) :
    ∃ left kept right, cs = left ++ kept ++ right ∧ kept ≠ [] ∧ byteLength left = first ∧
      byteLength (left ++ kept) = second := by
  obtain ⟨front, right, rfl, rfl⟩ := hSecond
  obtain ⟨left, kept, rfl, rfl⟩ := hFirst.of_le (Nat.le_of_lt hLt)
  refine ⟨left, kept, right, rfl, ?_, rfl, rfl⟩
  rintro rfl
  simp at hLt

/-- A position leads back to the boundary that it stands for. -/
theorem LineIndex.offset?_behind {left right : List Char}
    (hSize : byteLength (left ++ right) < UInt32.size) :
    (ofText (left ++ right)).offset? (left ++ right) (.behind left) = some (byteLength left) := by
  obtain ⟨ended, hEnded, hLeft, hCount⟩ := exists_isEnded left
  have hUnbroken := break_notMem_lastLine left
  rw [offset?, Position.behind, hCount]
  generalize lastLine left = line at hLeft hUnbroken
  subst hLeft
  have hLine : ((line ++ right).takeWhile (· ≠ '\n')).take line.length = line := by
    rw [List.takeWhile_append_of_pos, List.take_left]
    exact fun c hc => decide_eq_true fun hBreak => hUnbroken (hBreak ▸ hc)
  rw [List.append_assoc] at hSize ⊢
  obtain ⟨start, hStart, hNumber⟩ := starts_ofText hEnded hSize
  rw [hStart, Option.bind_some, hNumber, cut?_byteLength, Option.map_some, byteLength_append]
  dsimp only
  rw [hLine]

/-- A place that is found by halving is one of the places that were left. -/
theorem searchFrom_lt (xs : Array UInt32) (x base size : Nat) (hSize : 0 < size) :
    searchFrom xs x base size < base + size := by
  induction size using Nat.strongRecOn generalizing base with
  | ind size ih =>
      rw [searchFrom]
      split
      · have hRest := ih (size - size / 2) (by omega)
          (if x < (xs.getD (base + size / 2) 0).toNat then base else base + size / 2) (by omega)
        refine Nat.lt_of_lt_of_le hRest ?_
        split <;> omega
      · omega

/-- A line that is found is one of the index, whether its starts are in order or not. -/
theorem LineIndex.lineOf_lt {index : LineIndex} (hStarts : 0 < index.starts.size) (offset : Nat) :
    index.lineOf offset < index.starts.size := by
  have hPlace := searchFrom_lt index.starts offset 0 index.starts.size hStarts
  have hNonempty : ¬ index.starts.isEmpty = true := by
    rw [Array.isEmpty_iff_size_eq_zero]
    omega
  have hLow : ∀ line < index.starts.size, line % UInt32.size < index.starts.size :=
    fun line hLine => Nat.lt_of_le_of_lt (Nat.mod_le _ _) hLine
  simp only [lineOf, search, hNonempty, Bool.false_eq_true, if_false]
  split
  · rename_i line hFound
    split at hFound
    · cases hFound
      exact hLow _ (by omega)
    · split at hFound <;> cases hFound
  · rename_i next hFound
    apply hLow
    split at hFound
    · cases hFound
    · split at hFound <;> cases hFound <;> omega

/-- The index of a text answers for every offset into any text. -/
theorem LineIndex.isSome_position?_ofText (cs other : List Char) (offset : Nat) :
    ((ofText cs).position? other offset).isSome := by
  have hStarts : 0 < (ofText cs).starts.size := by simp [ofText]
  have hLine := lineOf_lt hStarts (min offset (byteLength other))
  rw [position?, Option.isSome_map, getElem?_pos (ofText cs).starts _ hLine]
  rfl

/-- The index of a text that is shorter than `2 ^ 32` bytes gives the positions in this text. -/
theorem LineIndex.isExact_ofText {cs : List Char} (hSize : byteLength cs < UInt32.size) :
    (ofText cs).IsExact cs where
  line := lineOf_ofText hSize
  boundary := by
    rintro left right rfl
    exact position?_boundary hSize
  increasing := by
    intro first second p q hFirst hSecond hLt hp hq
    obtain ⟨left, kept, right, rfl, hKept, rfl, rfl⟩ := hFirst.exists_kept hSecond hLt
    have hSecondAt := position?_boundary hSize
    rw [List.append_assoc] at hSize hp
    rw [position?_boundary hSize, Option.some.injEq] at hp
    rw [hSecondAt, Option.some.injEq] at hq
    rw [← hp, ← hq]
    exact Position.before_behind_append hKept left
  invertible := by
    rintro offset p ⟨left, right, rfl, rfl⟩ hp
    rw [position?_boundary hSize, Option.some.injEq] at hp
    rw [← hp]
    exact offset?_behind hSize
  past_end := by
    intro offset hLe
    rw [position?_ofText hSize, position?_ofText hSize, reached_of_byteLength_le hLe,
      reached_of_byteLength_le (Nat.le_refl _)]
  inside := by
    rintro left right c offset rfl hBehind hBefore
    have hCharacter : byteLength (left ++ [c]) = byteLength left + c.utf8Size := by
      rw [byteLength_append]
      rfl
    rw [position?_ofText hSize, position?_ofText hSize, hCharacter,
      reached_inside hBehind (Nat.le_of_lt hBefore),
      reached_inside (Nat.lt_of_lt_of_le hBehind (Nat.le_of_lt hBefore)) (Nat.le_refl _)]
  total := isSome_position?_ofText cs

/-- In two lines with a character of two bytes, the place behind it and the start of the second
line are found. -/
theorem LineIndex.isExact_ofText_twoLines :
    let cs := "é = a;\nb".toList
    byteLength cs < UInt32.size ∧ (ofText cs).IsExact cs ∧
      (ofText cs).position? cs 2 = some ⟨0, 1⟩ ∧ (ofText cs).position? cs 8 = some ⟨1, 0⟩ := by
  intro cs
  have hSize : byteLength cs < UInt32.size := by decide
  have hExact := isExact_ofText hSize
  have hCharacter : cs = ['é'] ++ " = a;\nb".toList := by decide
  have hLine : cs = "é = a;\n".toList ++ ['b'] := by decide
  have hBehindCharacter := hExact.boundary hCharacter
  have hBehindLine := hExact.boundary hLine
  rw [show byteLength ['é'] = 2 by decide] at hBehindCharacter
  rw [show byteLength "é = a;\n".toList = 8 by decide] at hBehindLine
  refine ⟨hSize, hExact, hBehindCharacter.trans ?_, hBehindLine.trans ?_⟩ <;> decide

end SetupLint.Text
