import Mathlib.Data.List.TakeWhile
import SetupLint.Proofs.JsonNesting

/-! The tree that is read from a text is no deeper than the text nests. The characters that a
reader uses up leave the brackets as they were, except that the end of an array or object closes
what was opened in front of it. Where reading breaks off the text goes on unread, and may only
nest deeper. -/
namespace SetupLint.Json

namespace Nesting

variable {opened most : Nat} {cs rest : List Char}

/-- Go through a text outside quotes, from where some arrays and objects are open. -/
def run (opened most : Nat) (cs : List Char) : Nesting := cs.foldl step ⟨false, false, opened, most⟩

theorem most_le_step (n : Nesting) (c : Char) : n.most ≤ (n.step c).most := by
  unfold step
  repeat' split
  all_goals first | exact Nat.le_refl _ | exact Nat.le_max_left _ _

/-- Reading on never lowers the most that was open. -/
theorem most_le_foldl (n : Nesting) (cs : List Char) : n.most ≤ (cs.foldl step n).most := by
  induction cs generalizing n with
  | nil => exact Nat.le_refl _
  | cons c cs ih => exact Nat.le_trans (most_le_step n c) (ih (n.step c))

theorem most_le_run : most ≤ (run opened most cs).most :=
  most_le_foldl ⟨false, false, opened, most⟩ cs

/-- An opening bracket opens one level more. -/
theorem run_open {c : Char} (h : c = '[' ∨ c = '\x7b') :
    run opened most (c :: cs) = run (opened + 1) (max most (opened + 1)) cs := by
  rcases h with rfl | rfl <;> rfl

/-- A closing bracket closes one level. -/
theorem run_close {c : Char} (h : c = ']' ∨ c = '\x7d') :
    run (opened + 1) most (c :: cs) = run opened most cs := by
  rcases h with rfl | rfl <;> rfl

end Nesting

/-- Nothing is opened or closed between the start of a text and its rest. -/
def Level (cs rest : List Char) : Prop :=
  ∀ opened most, Nesting.run opened most cs = Nesting.run opened most rest

namespace Level

variable {cs mid rest : List Char}

theorem refl (cs : List Char) : Level cs cs := fun _ _ => rfl

theorem trans (h : Level cs mid) (hRest : Level mid rest) : Level cs rest :=
  fun opened most => (h opened most).trans (hRest opened most)

/-- Text that opens and closes nothing keeps the level. -/
theorem append {shown : List Char} (h : ∀ c ∈ shown, IsPlain c) (rest : List Char) :
    Level (shown ++ rest) rest := fun opened most => by
  rw [Nesting.run, List.foldl_append, Nesting.foldl_isPlain h]
  rfl

theorem cons {c : Char} (h : IsPlain c) (rest : List Char) : Level (c :: rest) rest :=
  append (List.forall_mem_singleton.mpr h) rest

/-- Characters that are dropped open and close nothing if all that could be dropped do not. -/
theorem dropWhile {p : Char → Bool} (h : ∀ c, p c = true → IsPlain c) (cs : List Char) :
    Level cs (cs.dropWhile p) := by
  have hShown : ∀ c ∈ cs.takeWhile p, IsPlain c := fun c hc => h c (List.mem_takeWhile_imp hc)
  have hAppend := append hShown (cs.dropWhile p)
  rwa [List.takeWhile_append_dropWhile] at hAppend

/-- Blanks keep the level. -/
theorem skipGap (cs : List Char) : Level cs (skipGap cs) :=
  dropWhile (fun _ => isPlain_of_isGap) cs

theorem comma (h : Json.skipGap cs = ',' :: rest) : Level cs (Json.skipGap rest) := by
  have hComma := skipGap cs
  rw [h] at hComma
  exact hComma.trans ((cons (by decide) rest).trans (skipGap rest))

theorem dropDigits (cs : List Char) : Level cs (cs.dropWhile Char.isDigit) :=
  dropWhile (fun _ => isPlain_of_isDigit) cs

/-- The rest of a word keeps the level. -/
theorem readWord {word : List Char} (hWord : ∀ c ∈ word, IsPlain c)
    (h : Json.readWord word cs = .ok rest) : Level cs rest := by
  induction word generalizing cs with
  | nil => exact Except.ok.inj h ▸ refl cs
  | cons w word ih =>
      obtain ⟨hPlain, hWord⟩ := List.forall_mem_cons.mp hWord
      cases cs with
      | nil => cases h
      | cons c cs =>
          rw [Json.readWord] at h
          split at h
          · next hSame => exact (cons (hSame ▸ hPlain) cs).trans (ih hWord h)
          · cases h

theorem readExponent {exponent : Option Int} (h : Json.readExponent cs = .ok (exponent, rest)) :
    Level cs rest := by
  unfold Json.readExponent at h
  split at h
  · next c cs =>
      split at h
      · next hLetter =>
          have hPlain : IsPlain c := by rcases hLetter with rfl | rfl <;> decide
          split at h
          next negative unsigned hSign =>
          have hUnsigned : Level cs unsigned := by
            split at hSign <;> cases hSign
            · exact cons (by decide) unsigned
            · exact cons (by decide) unsigned
            · exact refl cs
          simp only at h
          split at h
          · cases h
          · cases h
            exact (cons hPlain cs).trans (hUnsigned.trans (dropDigits unsigned))
      · cases h
        exact refl _
  · cases h
    exact refl []

theorem readFraction {shown : List Char} (h : Json.readFraction cs = .ok (shown, rest)) :
    Level cs rest := by
  unfold Json.readFraction at h
  split at h
  · next tail =>
      simp only at h
      split at h
      · cases h
      · cases h
        exact (cons (by decide) tail).trans (dropDigits tail)
  · cases h
    exact refl cs

theorem readWhole {shown : List Char} (h : Json.readWhole cs = .ok (shown, rest)) :
    Level cs rest := by
  unfold Json.readWhole at h
  simp only at h
  split at h
  · cases h
  · cases h
  · cases h
    exact dropDigits cs

/-- A number keeps the level. -/
theorem readNumeral {n : Numeral} (h : Json.readNumeral cs = .ok (n, rest)) : Level cs rest := by
  unfold Json.readNumeral at h
  split at h
  next negative unsigned hSign =>
  have hUnsigned : Level cs unsigned := by
    split at hSign <;> cases hSign
    · exact cons (by decide) unsigned
    · exact refl cs
  obtain ⟨whole, hWhole, hBehind⟩ := exists_ok_of_bind h
  obtain ⟨fraction, hFraction, hBehind⟩ := exists_ok_of_bind hBehind
  obtain ⟨exponent, hExponent, hBehind⟩ := exists_ok_of_bind hBehind
  cases hBehind
  exact hUnsigned.trans ((readWhole hWhole).trans ((readFraction hFraction).trans
    (readExponent hExponent)))

/-- The digits of an escape end no quotes and start no other escape. -/
theorem hexCode?_digits {a b c d : Char} {code : Nat} (h : hexCode? a b c d = some code) :
    ∀ digit ∈ [a, b, c, d], digit ≠ '\\' ∧ digit ≠ '"' := by
  have hDigit {c : Char} {value : Nat} (h : hexValue? c = some value) : c ≠ '\\' ∧ c ≠ '"' := by
    refine ⟨?_, ?_⟩ <;>
    · rintro rfl
      cases h
  obtain ⟨_, hFirst, h⟩ := Option.bind_eq_some_iff.mp h
  obtain ⟨_, hSecond, h⟩ := Option.bind_eq_some_iff.mp h
  obtain ⟨_, hThird, h⟩ := Option.bind_eq_some_iff.mp h
  obtain ⟨_, hFourth, h⟩ := Option.bind_eq_some_iff.mp h
  simp [hDigit hFirst, hDigit hSecond, hDigit hThird, hDigit hFourth]

/-- Nothing is opened inside quotes, and they are closed where a reader says. -/
theorem readQuoted {q : Quoting} {content : Except Defect String}
    (h : Json.readQuoted q cs = .closed content rest) : Level ('"' :: cs) rest := by
  intro opened most
  have hShown {shown : List Char} (h : ∀ c ∈ shown, c ≠ '\\' ∧ c ≠ '"') :
      shown.foldl Nesting.step ⟨true, false, opened, most⟩ = ⟨true, false, opened, most⟩ := by
    induction shown with
    | nil => rfl
    | cons c shown ih =>
        obtain ⟨hHead, hTail⟩ := List.forall_mem_cons.mp h
        simpa [Nesting.step, hHead] using ih hTail
  have hEscaped (c : Char) : ['\\', c].foldl Nesting.step ⟨true, false, opened, most⟩ =
      ⟨true, false, opened, most⟩ := by
    simp [Nesting.step]
  suffices hInside : cs.foldl Nesting.step ⟨true, false, opened, most⟩ =
      Nesting.run opened most rest from hInside
  fun_induction Json.readQuoted q cs with
  | case2 q tail =>
      unfold Quoting.close at h
      split at h <;> cases h <;> rfl
  | case5 q a b c d tail code hCode ih =>
      have hMark : '\\' :: 'u' :: a :: b :: c :: d :: tail =
          ['\\', 'u'] ++ ([a, b, c, d] ++ tail) := rfl
      rw [hMark, List.foldl_append, hEscaped, List.foldl_append, hShown (hexCode?_digits hCode)]
      exact ih h
  | case7 q c tail hCode hLetter char hChar ih =>
      have hMark : '\\' :: c :: tail = ['\\', c] ++ tail := rfl
      rw [hMark, List.foldl_append, hEscaped]
      exact ih h
  | case10 q c tail hQuote hEnd hCode hLetter hEscape hControl ih =>
      have hBackslash : c ≠ '\\' := by
        rintro rfl
        cases tail with
        | nil => exact hEnd rfl rfl
        | cons d tail => exact hEscape d tail rfl rfl
      rw [← List.singleton_append, List.foldl_append,
        hShown (List.forall_mem_singleton.mpr ⟨hBackslash, hQuote⟩)]
      exact ih h
  | _ => cases h

end Level

/-- How many arrays and objects are open where a part starts, by how many are open behind it:
items and members are read with the bracket that closes them. -/
def Part.inside : Part → Nat → Nat
  | .value, opened => opened
  | _, opened => opened + 1

@[simp] theorem Part.inside_value (opened : Nat) : Part.value.inside opened = opened := rfl

/-- What a reader gives for a text is no deeper than the text nests, and the text behind it goes
on at the level where the part was to end. -/
structure Followed (p : Part) (cs : List Char) (result : Read p) : Prop where
  depth : ∀ opened most, p.inside opened ≤ most →
    p.inside opened + result.1.depth ≤ (Nesting.run (p.inside opened) most cs).most
  rest : ∀ rest, result.2 = some rest → ∀ opened most, p.inside opened ≤ most →
    ∃ most', opened ≤ most' ∧
      Nesting.run (p.inside opened) most cs = Nesting.run opened most' rest

namespace Followed

variable {p : Part} {cs rest : List Char} {left : Option (List Char)} {tree : Json Fault p}
  {value : Reading}

/-- What keeps the level may stand before what is followed. -/
theorem of_level (hLevel : Level cs rest) {result : Read p} (h : Followed p rest result) :
    Followed p cs result where
  depth opened most hMost := by
    rw [hLevel]
    exact h.depth opened most hMost
  rest behind hRest opened most hMost := by
    rw [hLevel]
    exact h.rest behind hRest opened most hMost

/-- Where reading breaks off, the text can only nest deeper. -/
theorem none (hDepth : tree.depth = 0) : Followed p cs (tree, .none) where
  depth opened most hMost := by
    rw [hDepth, Nat.add_zero]
    exact Nat.le_trans hMost Nesting.most_le_run
  rest _ hRest := by cases hRest

theorem stop (why : Fault) : Followed p cs (.stop why) := none (by simp [Json.depth])

/-- A value that opens nothing. -/
theorem some (hDepth : value.depth = 0) (hLevel : Level cs rest) :
    Followed .value cs (value, .some rest) where
  depth opened most hMost := by
    rw [hDepth, Nat.add_zero]
    exact Nat.le_trans hMost Nesting.most_le_run
  rest behind hRest opened most hMost := by
    cases hRest
    exact ⟨most, hMost, hLevel opened most⟩

/-- The rest of a word whose first letter has been met. -/
theorem word {c : Char} {word : List Char} (hFirst : IsPlain c) (hWord : ∀ c ∈ word, IsPlain c)
    (hDepth : value.depth = 0) (cs : List Char) :
    Followed .value (c :: cs) (.leaf ((readWord word cs).map (value, ·))) := by
  cases hRead : readWord word cs with
  | error why => exact stop why
  | ok rest => exact some hDepth ((Level.cons hFirst cs).trans (Level.readWord hWord hRead))

/-- A leaf is followed if it opens nothing. -/
theorem leaf {result : Except Fault (Reading × List Char)}
    (h : ∀ value rest, result = .ok (value, rest) → value.depth = 0 ∧ Level cs rest) :
    Followed .value cs (.leaf result) := by
  cases result with
  | error why => exact stop why
  | ok result => exact some (h _ _ rfl).1 (h _ _ rfl).2

/-- A bracket and what is read behind it. -/
theorem bracketed {result : Read p} (h : Followed p cs result) {c : Char}
    (hOpen : c = '[' ∨ c = '\x7b') (hInside : ∀ opened, p.inside opened = opened + 1)
    (hDepth : value.depth = result.1.depth + 1) :
    Followed .value (c :: cs) (value, result.2) where
  depth opened most hMost := by
    have hBehind := h.depth opened (max most (opened + 1))
    rw [hInside] at hBehind
    have hDeep := hBehind (Nat.le_max_right _ _)
    rw [Part.inside_value, Nesting.run_open hOpen, hDepth]
    omega
  rest behind hRest opened most hMost := by
    have hBehind := h.rest behind hRest opened (max most (opened + 1))
    rw [hInside] at hBehind
    rw [Part.inside_value, Nesting.run_open hOpen]
    exact hBehind (Nat.le_max_right _ _)

/-- The bracket behind the last item or member. -/
theorem closed {c : Char} (hClose : c = ']' ∨ c = '\x7d')
    (hInside : ∀ opened, p.inside opened = opened + 1) (hDepth : tree.depth = 0) :
    Followed p (c :: cs) (tree, .some cs) where
  depth opened most hMost := by
    rw [hDepth, Nat.add_zero]
    exact Nat.le_trans hMost Nesting.most_le_run
  rest behind hRest opened most hMost := by
    cases hRest
    rw [hInside] at hMost ⊢
    exact ⟨most, Nat.le_of_succ_le hMost, Nesting.run_close hClose⟩

/-- A value inside an array or object, and what is read behind it. -/
theorem entry {others : Json Fault p}
    (hDepth : tree.depth = max value.depth others.depth)
    (hValue : Followed .value cs (value, .some rest)) (hRest : Followed p rest (others, left)) :
    Followed p cs (tree, left) where
  depth opened most hMost := by
    obtain ⟨most', hMost', hRun⟩ := hValue.rest rest rfl (p.inside opened) most hMost
    have hFirst := hValue.depth (p.inside opened) most hMost
    have hOthers : p.inside opened + others.depth ≤ _ := hRest.depth opened most' hMost'
    simp only [Part.inside_value] at hRun hFirst
    rw [hDepth]
    rw [hRun] at hFirst ⊢
    omega
  rest behind hBehind opened most hMost := by
    obtain ⟨most', hMost', hRun⟩ := hValue.rest rest rfl (p.inside opened) most hMost
    rw [Part.inside_value] at hRun
    rw [hRun]
    exact hRest.rest behind hBehind opened most' hMost'

/-- A value inside an array or object behind which reading breaks off. -/
theorem broken (hDepth : tree.depth = value.depth) (hValue : Followed .value cs (value, left)) :
    Followed p cs (tree, .none) where
  depth opened most hMost := by
    rw [hDepth]
    exact hValue.depth (p.inside opened) most hMost
  rest _ hRest := by cases hRest

section Step

variable {fuel : Nat} (ih : ∀ p cs, Followed p cs (Json.readPart fuel p cs))
include ih

/-- One step of reading a value follows the text. -/
theorem readValue (cs : List Char) : Followed .value cs (Json.readPart (fuel + 1) .value cs) := by
  refine of_level (Level.skipGap cs) ?_
  rw [Json.readPart]
  generalize skipGap cs = ds
  split
  · exact stop _
  · next tail =>
      split
      · next hQuoted => exact some rfl (Level.readQuoted hQuoted)
      · next hQuoted => exact some rfl (Level.readQuoted hQuoted)
      · exact stop _
  · next tail => exact (ih .items tail).bracketed (.inl rfl) (fun _ => rfl) rfl
  · next tail => exact (ih .members tail).bracketed (.inr rfl) (fun _ => rfl) rfl
  · next tail => exact word (by decide) (by simp [IsPlain]) rfl tail
  · next tail => exact word (by decide) (by simp [IsPlain]) rfl tail
  · next tail => exact word (by decide) (by simp [IsPlain]) rfl tail
  · split
    · refine leaf fun value rest hNumeral => ?_
      obtain ⟨read, hRead, hValue⟩ := exists_ok_of_map hNumeral
      cases hValue
      exact ⟨rfl, Level.readNumeral hRead⟩
    · exact stop _

theorem readItems (cs : List Char) : Followed .items cs (Json.readPart (fuel + 1) .items cs) := by
  refine of_level (Level.skipGap cs) ?_
  rw [Json.readPart]
  generalize skipGap cs = ds
  split
  · exact stop _
  · next tail => exact closed (.inl rfl) (fun _ => rfl) rfl
  · split
    · next value hValue => exact broken (by simp [Json.depth]) (hValue ▸ ih .value ds)
    · next value rest hRead =>
        have hValue : Followed .value ds (value, .some rest) := hRead ▸ ih .value ds
        split
        · exact broken (by simp [Json.depth]) hValue
        · next after hEnd =>
            exact entry rfl hValue <|
              of_level (hEnd ▸ Level.skipGap rest) (closed (.inl rfl) (fun _ => rfl) rfl)
        · next after hComma =>
            have hAfter := Level.comma hComma
            split
            · exact broken (by simp [Json.depth]) hValue
            · exact broken (by simp [Json.depth]) hValue
            · exact entry rfl hValue (of_level hAfter (ih .items _))
        · exact broken (by simp [Json.depth]) hValue

theorem readMembers (cs : List Char) :
    Followed .members cs (Json.readPart (fuel + 1) .members cs) := by
  refine of_level (Level.skipGap cs) ?_
  rw [Json.readPart]
  generalize skipGap cs = ds
  split
  · exact stop _
  · next tail => exact closed (.inr rfl) (fun _ => rfl) rfl
  · next tail =>
      split
      · exact none (by simp [Json.depth])
      · next key rest hKey =>
          extract_lets put
          have hPut (value : Reading) (members : Json Fault .members) :
              (put value members).depth = max value.depth members.depth := by
            cases key <;> rfl
          have hStart : Level ('"' :: tail) (skipGap rest) :=
            (Level.readQuoted hKey).trans (Level.skipGap rest)
          split
          · exact none (by simp [hPut, Json.depth])
          · next behind hColon =>
              rw [hColon] at hStart
              have hBehind : Level ('"' :: tail) behind :=
                hStart.trans (Level.cons (by decide) behind)
              have hRead : Followed .value ('"' :: tail) (Json.readPart fuel .value behind) :=
                of_level hBehind (ih .value behind)
              split
              · next value hValue =>
                  rw [hValue] at hRead
                  exact broken (by simp [hPut, Json.depth]) hRead
              · next value rest hValue =>
                  rw [hValue] at hRead
                  split
                  · exact broken (by simp [hPut, Json.depth]) hRead
                  · next after hEnd =>
                      exact entry (hPut _ _) hRead <|
                        of_level (hEnd ▸ Level.skipGap rest) (closed (.inr rfl) (fun _ => rfl) rfl)
                  · next after hComma =>
                      have hAfter := Level.comma hComma
                      split
                      · next key hQuote =>
                          rw [hQuote] at hAfter
                          exact entry (hPut _ _) hRead (of_level hAfter (ih .members _))
                      · exact broken (by simp [hPut, Json.depth]) hRead
                      · exact broken (by simp [hPut, Json.depth]) hRead
                  · exact broken (by simp [hPut, Json.depth]) hRead
          · exact none (by simp [hPut, Json.depth])
  · exact none (by simp [Json.depth])

end Step

/-- Whatever a text is read as: its tree is no deeper than the text nests. -/
theorem readPart (fuel : Nat) (p : Part) (cs : List Char) :
    Followed p cs (Json.readPart fuel p cs) := by
  induction fuel generalizing p cs with
  | zero => exact stop _
  | succ fuel ih =>
      cases p with
      | value => exact readValue ih cs
      | items => exact readItems ih cs
      | members => exact readMembers ih cs

end Followed

/-- The tree that is read from a text is no deeper than the text nests. -/
theorem depth_read_le (text : String) : (read text).1.depth ≤ nesting text := by
  have hFollowed := Followed.readPart (2 * text.toList.length + 1) .value text.toList
  have hDepth := hFollowed.depth 0 0 (Nat.le_refl 0)
  rwa [Part.inside_value, Nat.zero_add] at hDepth

end SetupLint.Json
