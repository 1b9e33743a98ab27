import Mathlib.Data.List.Basic
import SetupLint.Text.Line

/-! The number of the line that holds a byte offset is the number of line feeds before the
offset. The line index finds it by binary search, which is right because the lines start one
behind another. The starts of a text that is shorter than `2 ^ 32` bytes fit into the index. -/
namespace SetupLint.Text

def utf8 (cs : List Char) : List UInt8 := cs.flatMap String.utf8EncodeChar

theorem length_utf8 (cs : List Char) : (utf8 cs).length = byteLength cs := by
  induction cs with
  | nil => rfl
  | cons c cs ih =>
      rw [utf8, List.flatMap_cons, List.length_append, String.length_utf8EncodeChar, byteLength]
      exact congrArg (c.utf8Size + ·) ih

/-- The number of line feeds among the bytes before an offset. -/
def breaksBefore (offset : Nat) (cs : List Char) : Nat := ((utf8 cs).take offset).count 0x0A

/-- The last number that is at most `x` is among `size` places from `base` on, unless all
numbers are greater and `base` is the first place. -/
structure Searched (xs : Array UInt32) (x base size : Nat) : Prop where
  positive : 0 < size
  inside : base + size ≤ xs.size
  low : 0 < base → (xs.getD base 0).toNat ≤ x
  high : ∀ i, base + size ≤ i → i < xs.size → x < (xs.getD i 0).toNat

def Ascending (xs : Array UInt32) : Prop :=
  ∀ i j, i < j → j < xs.size → (xs.getD i 0).toNat < (xs.getD j 0).toNat

/-- The places that are left after a look at the middle one. -/
theorem Searched.halve {xs : Array UInt32} {x base size : Nat} (hAscending : Ascending xs)
    (h : Searched xs x base size) (hSize : 1 < size) :
    Searched xs x (if x < (xs.getD (base + size / 2) 0).toNat then base else base + size / 2)
      (size - size / 2) := by
  obtain ⟨-, hInside, hLow, hHigh⟩ := h
  split
  · rename_i hGreater
    refine ⟨by omega, by omega, hLow, fun i hi hBound => ?_⟩
    -- behind the middle place all numbers are greater
    by_cases hMiddle : i = base + size / 2
    · rw [hMiddle]
      exact hGreater
    · exact Nat.lt_trans hGreater (hAscending _ _ (by omega) hBound)
  · exact ⟨by omega, by omega, fun _ => by omega, fun i hi => hHigh i (by omega)⟩

/-- Halving ends at a single place. -/
theorem Searched.searchFrom {xs : Array UInt32} {x base size : Nat} (hAscending : Ascending xs)
    (h : Searched xs x base size) : Searched xs x (searchFrom xs x base size) 1 := by
  induction hSteps : size using Nat.strongRecOn generalizing base size with
  | ind n ih =>
      subst hSteps
      rw [Text.searchFrom]
      split
      · rename_i hSize
        exact ih _ (by omega) (h.halve hAscending hSize) rfl
      · rename_i hSize
        have hPositive := h.positive
        obtain rfl : size = 1 := by omega
        exact h

/-- If the first `n` elements satisfy `p` and no other one does, there are `n` of them. -/
theorem countP_eq_of_prefix {p : UInt32 → Bool} {xs : Array UInt32} {n : Nat} (hn : n ≤ xs.size)
    (hTrue : ∀ i, i < n → p (xs.getD i 0) = true)
    (hFalse : ∀ i, n ≤ i → i < xs.size → p (xs.getD i 0) = false) :
    xs.toList.countP p = n := by
  rw [← List.take_append_drop n xs.toList, List.countP_append]
  have hTake : (xs.toList.take n).countP p = n := by
    rw [List.countP_eq_length.mpr, List.length_take, Array.length_toList, Nat.min_eq_left hn]
    intro y hy
    obtain ⟨i, hi, rfl⟩ := List.mem_take_iff_getElem.mp hy
    have h := hTrue i (by omega)
    rw [Array.getD_eq_getD_getElem?, Array.getElem?_eq_getElem (by simpa using (by omega))] at h
    simpa using h
  have hDrop : (xs.toList.drop n).countP p = 0 := by
    rw [List.countP_eq_zero]
    intro y hy
    obtain ⟨i, hi, rfl⟩ := List.mem_drop_iff_getElem.mp hy
    have hi' : n + i < xs.size := by
      rw [Array.length_toList] at hi
      omega
    have h := hFalse (n + i) (by omega) hi'
    rw [Array.getD_eq_getD_getElem?, Array.getElem?_eq_getElem hi'] at h
    simpa using h
  rw [hTake, hDrop, Nat.add_zero]

/-- If the number that is found is at most `x`, the numbers up to its place are. -/
theorem Searched.countP_of_le {xs : Array UInt32} {x place : Nat} (hAscending : Ascending xs)
    (h : Searched xs x place 1) (hFound : (xs.getD place 0).toNat ≤ x) :
    xs.toList.countP (·.toNat ≤ x) = place + 1 := by
  obtain ⟨-, hInside, -, hHigh⟩ := h
  refine countP_eq_of_prefix hInside (fun i hi => decide_eq_true ?_)
    fun i hi hBound => decide_eq_false ?_
  · by_cases hPlace : i = place
    · rw [hPlace]
      exact hFound
    · have hBefore := hAscending i place (by omega) (by omega)
      omega
  · have hGreater := hHigh i hi hBound
    omega

/-- If the number that is found is greater than `x`, all numbers are. -/
theorem Searched.countP_of_lt {xs : Array UInt32} {x place : Nat} (h : Searched xs x place 1)
    (hFound : x < (xs.getD place 0).toNat) :
    place = 0 ∧ xs.toList.countP (·.toNat ≤ x) = 0 := by
  obtain ⟨-, hInside, hLow, hHigh⟩ := h
  obtain rfl : place = 0 := by
    by_contra hPlace
    have hAtMost := hLow (by omega)
    omega
  refine ⟨rfl, countP_eq_of_prefix (Nat.zero_le _) (fun i hi => by omega)
    fun i _ hBound => decide_eq_false ?_⟩
  by_cases hZero : i = 0
  · rw [hZero]
    omega
  · have hGreater := hHigh i (by omega) hBound
    omega

/-- The line of an offset is the last one that starts at it or before it. -/
theorem LineIndex.lineOf_eq_countP {index : LineIndex} (hAscending : Ascending index.starts)
    (offset : Nat) :
    index.lineOf offset =
      (index.starts.toList.countP (·.toNat ≤ offset) - 1) % UInt32.size := by
  unfold lineOf search
  by_cases hEmpty : index.starts.isEmpty = true
  · rw [if_pos hEmpty, Array.isEmpty_iff.mp hEmpty]
    rfl
  · have hPositive : 0 < index.starts.size := by
      rw [Array.isEmpty_iff_size_eq_zero] at hEmpty
      omega
    have hStart : Searched index.starts offset 0 index.starts.size :=
      ⟨hPositive, by omega, fun h => absurd h (by omega), fun i hi hBound => by omega⟩
    have hSearched := hStart.searchFrom hAscending
    rw [if_neg hEmpty]
    generalize Text.searchFrom index.starts offset 0 index.starts.size = place at hSearched
    by_cases hFound : (index.starts.getD place 0).toNat ≤ offset
    · rw [hSearched.countP_of_le hAscending hFound]
      by_cases hEq : (index.starts.getD place 0).toNat = offset
      · simp only [hEq, if_true]
        rfl
      · simp only [hEq, Nat.lt_of_le_of_ne hFound hEq, if_true, if_false]
    · have hGreater := Nat.lt_of_not_le hFound
      obtain ⟨rfl, hCount⟩ := hSearched.countP_of_lt hGreater
      rw [hCount]
      simp only [Nat.ne_of_gt hGreater, Nat.not_lt_of_gt hGreater, if_false]

/-! ### The starts of the lines of a text -/

/-- A line starts behind the breaks before it. -/
theorem lt_of_mem_startsAfterBreaks {cs : List Char} {base start : Nat}
    (h : start ∈ startsAfterBreaks base cs) : base < start := by
  induction cs generalizing base with
  | nil => cases h
  | cons c cs ih =>
      have hSize := Char.utf8Size_pos c
      simp only [startsAfterBreaks] at h
      split at h
      · rcases List.mem_cons.mp h with rfl | h
        · omega
        · exact Nat.lt_of_le_of_lt (by omega) (ih h)
      · exact Nat.lt_of_le_of_lt (by omega) (ih h)

/-- No line starts behind the end of the text. -/
theorem le_of_mem_startsAfterBreaks {cs : List Char} {base start : Nat}
    (h : start ∈ startsAfterBreaks base cs) : start ≤ base + byteLength cs := by
  induction cs generalizing base with
  | nil => cases h
  | cons c cs ih =>
      simp only [startsAfterBreaks] at h
      rw [byteLength, ← Nat.add_assoc]
      split at h
      · rcases List.mem_cons.mp h with rfl | h
        · exact Nat.le_add_right _ _
        · exact ih h
      · exact ih h

/-- Line starts go up. -/
theorem pairwise_startsAfterBreaks (base : Nat) (cs : List Char) :
    (startsAfterBreaks base cs).Pairwise (· < ·) := by
  induction cs generalizing base with
  | nil => exact List.Pairwise.nil
  | cons c cs ih =>
      simp only [startsAfterBreaks]
      split
      · exact List.Pairwise.cons (fun _ => lt_of_mem_startsAfterBreaks) (ih _)
      · exact ih _

/-- The starts of the lines fit into 32 bits, so they are kept as they are. -/
theorem LineIndex.map_toNat_starts {cs : List Char} (hSize : byteLength cs < UInt32.size) :
    (ofText cs).starts.toList.map UInt32.toNat = 0 :: startsAfterBreaks 0 cs := by
  have hFits : ∀ start ∈ 0 :: startsAfterBreaks 0 cs, (UInt32.ofNat start).toNat = start := by
    intro start hStart
    apply UInt32.toNat_ofNat_of_lt
    rcases List.mem_cons.mp hStart with rfl | hStart
    · decide
    · have hEnd := le_of_mem_startsAfterBreaks hStart
      omega
  rw [ofText, List.map_map]
  exact (List.map_congr_left hFits).trans (List.map_id' _)

/-- Below the 32-bit bound the stored starts go up as well. -/
theorem LineIndex.ascending_ofText {cs : List Char} (hSize : byteLength cs < UInt32.size) :
    Ascending (ofText cs).starts := by
  have hPairwise : ((ofText cs).starts.toList.map UInt32.toNat).Pairwise (· < ·) := by
    rw [map_toNat_starts hSize]
    exact List.Pairwise.cons (fun _ => lt_of_mem_startsAfterBreaks)
      (pairwise_startsAfterBreaks 0 cs)
  intro i j hij hj
  have h := List.pairwise_iff_getElem.mp (List.pairwise_map.mp hPairwise) i j
    (by simpa using Nat.lt_trans hij hj) (by simpa using hj) hij
  simpa [Array.getD_eq_getD_getElem?, Array.getElem?_eq_getElem hj,
    Array.getElem?_eq_getElem (Nat.lt_trans hij hj)] using h

/-- Only a line feed has the byte of a line feed in its UTF-8 form. -/
theorem not_mem_utf8EncodeChar {c : Char} (h : c ≠ '\n') : 0x0A ∉ String.utf8EncodeChar c := by
  have hCode : c.val.toNat ≠ 10 := fun hEq => h (Char.ext (UInt32.toNat_inj.mp hEq))
  have hByte : ∀ n : Nat, n < 256 → n ≠ 10 → (0x0A : UInt8) ≠ UInt8.ofNat n := by
    intro n hn hne hEq
    have hToNat := congrArg UInt8.toNat hEq
    rw [UInt8.toNat_ofNat', Nat.mod_eq_of_lt hn] at hToNat
    exact hne hToNat.symm
  unfold String.utf8EncodeChar
  generalize c.val.toNat = v at hCode
  show 0x0A ∉ ite _ _ _
  by_cases hAscii : v ≤ 0x7f
  · rw [if_pos hAscii, List.mem_singleton]
    exact hByte v (by omega) hCode
  · -- all bytes of the longer forms are at least 128
    have hAll : ∀ ns : List Nat, (∀ n ∈ ns, 128 ≤ n ∧ n < 256) → 0x0A ∉ ns.map UInt8.ofNat := by
      intro ns hns hMem
      obtain ⟨n, hn, hEq⟩ := List.mem_map.mp hMem
      obtain ⟨hLow, hHigh⟩ := hns n hn
      exact hByte n hHigh (by omega) hEq.symm
    rw [if_neg hAscii]
    split
    · exact hAll [_, _] (by simp; omega)
    · split
      · exact hAll [_, _, _] (by simp; omega)
      · exact hAll [_, _, _, _] (by simp; omega)

/-- The lines that start at an offset or before it are those behind the breaks before it. -/
theorem countP_startsAfterBreaks (base offset : Nat) (cs : List Char) :
    (startsAfterBreaks base cs).countP (· ≤ offset) = breaksBefore (offset - base) cs := by
  induction cs generalizing base with
  | nil => simp [startsAfterBreaks, breaksBefore, utf8]
  | cons c cs ih =>
      have hSplit : breaksBefore (offset - base) (c :: cs) =
          ((String.utf8EncodeChar c).take (offset - base)).count 0x0A +
            breaksBefore (offset - (base + c.utf8Size)) cs := by
        rw [breaksBefore, utf8, List.flatMap_cons, List.take_append, List.count_append,
          String.length_utf8EncodeChar, Nat.sub_sub]
        rfl
      rw [hSplit, ← ih]
      simp only [startsAfterBreaks]
      split
      · rename_i hBreak
        subst hBreak
        rw [List.countP_cons, Nat.add_comm]
        congr 1
        have hSize : ('\n').utf8Size = 1 := rfl
        have hBytes : String.utf8EncodeChar '\n' = [0x0A] := rfl
        rw [hSize, hBytes]
        by_cases hBefore : base + 1 ≤ offset
        · obtain ⟨k, hk⟩ : ∃ k, offset - base = k + 1 := ⟨offset - base - 1, by omega⟩
          simp [hBefore, hk]
        · have hZero : offset - base = 0 := by omega
          simp [hBefore, hZero]
      · rename_i hBreak
        have hCount : ((String.utf8EncodeChar c).take (offset - base)).count 0x0A = 0 :=
          List.count_eq_zero.mpr fun hMem =>
            not_mem_utf8EncodeChar hBreak (List.mem_of_mem_take hMem)
        rw [hCount, Nat.zero_add]

/-- There are no more line feeds than bytes. -/
theorem breaksBefore_le (offset : Nat) (cs : List Char) :
    breaksBefore offset cs ≤ byteLength cs := by
  have hCount : breaksBefore offset cs ≤ ((utf8 cs).take offset).length := List.count_le_length
  have hTake := List.length_take_le' offset (utf8 cs)
  rw [length_utf8] at hTake
  exact Nat.le_trans hCount hTake

/-- The line of an offset in a text is the number of line feeds before the offset. -/
theorem LineIndex.lineOf_ofText {cs : List Char} (hSize : byteLength cs < UInt32.size)
    (offset : Nat) : (ofText cs).lineOf offset = breaksBefore offset cs := by
  have hCount : (ofText cs).starts.toList.countP (·.toNat ≤ offset) =
      breaksBefore offset cs + 1 := by
    calc (ofText cs).starts.toList.countP (·.toNat ≤ offset)
        = ((ofText cs).starts.toList.map UInt32.toNat).countP (· ≤ offset) := by
          rw [List.countP_map]
          rfl
      _ = breaksBefore offset cs + 1 := by
          rw [map_toNat_starts hSize, List.countP_cons, countP_startsAfterBreaks]
          simp
  rw [lineOf_eq_countP (ascending_ofText hSize), hCount, Nat.add_sub_cancel]
  exact Nat.mod_eq_of_lt (Nat.lt_of_le_of_lt (breaksBefore_le offset cs) hSize)

end SetupLint.Text
