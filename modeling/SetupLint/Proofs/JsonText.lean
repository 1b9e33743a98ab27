import SetupLint.Json.Decode
import SetupLint.Json.Printer

/-! Printed JSON reads back. A document is printed as a text that reads as the same document,
with nothing left behind it, if all its numbers are whole and in the range that is read exactly. -/
namespace SetupLint

/-- Where two steps one after the other succeed, each of them does. -/
theorem exists_ok_of_bind {ε α β : Type} {first : Except ε α} {next : α → Except ε β} {b : β}
    (h : first >>= next = .ok b) : ∃ a, first = .ok a ∧ next a = .ok b := by
  cases first with
  | error e => cases h
  | ok a => exact ⟨a, rfl, h⟩

theorem exists_ok_of_map {ε α β : Type} {result : Except ε α} {f : α → β} {b : β}
    (h : result.map f = .ok b) : ∃ a, result = .ok a ∧ f a = b := by
  cases result with
  | error e => cases h
  | ok a => exact ⟨a, rfl, Except.ok.inj h⟩

namespace Numeral

/-- The numeral of a whole number that is read exactly. -/
def IsExact (n : Numeral) : Prop :=
  ∃ i : Int, -twoPower 63 ≤ i ∧ i ≤ maxSignificand ∧ n = .ofInt i

def IsWhole (n : Numeral) : Prop := ∃ i : Int, n = .ofInt i

theorem IsExact.isWhole {n : Numeral} (h : n.IsExact) : n.IsWhole := by
  obtain ⟨i, -, -, h⟩ := h
  exact ⟨i, h⟩

/-- A numeral with nothing but digits around its point. -/
structure IsDigital (n : Numeral) : Prop where
  whole : ∀ c ∈ n.whole, c.isDigit = true
  fraction : ∀ c ∈ n.fraction, c.isDigit = true

theorem isDigital_ofInt (i : Int) : (ofInt i).IsDigital where
  whole _ hc := Nat.isDigit_of_mem_toDigits (by decide) (by decide) hc
  fraction _ hc := by cases hc

theorem IsExact.isDigital {n : Numeral} (h : n.IsExact) : n.IsDigital := by
  obtain ⟨i, -, -, rfl⟩ := h
  exact isDigital_ofInt i

theorem le_ofDigitChars (cs : List Char) (significand : Nat) :
    significand ≤ Nat.ofDigitChars 10 cs significand := by
  induction cs generalizing significand with
  | nil => simp
  | cons c cs ih =>
      have hNext := ih (10 * significand + (c.toNat - '0'.toNat))
      rw [Nat.ofDigitChars_cons]
      omega

/-- Digits are collected as long as the number that they write is not too large. -/
theorem collect_eq (cs : List Char) (significand : Nat)
    (h : Nat.ofDigitChars 10 cs significand ≤ maxSignificand) :
    collect significand cs = (Nat.ofDigitChars 10 cs significand, 0) := by
  induction cs generalizing significand with
  | nil => simp [collect]
  | cons c cs ih =>
      rw [Nat.ofDigitChars_cons] at h ⊢
      have hNext : significand * 10 + digitValue c = 10 * significand + (c.toNat - '0'.toNat) := by
        rw [digitValue, Nat.mul_comm]
      have hLe := Nat.le_trans (le_ofDigitChars cs _) h
      rw [collect]
      simp only [hNext]
      rw [if_pos hLe, ih _ h]

/-- The digits of a number that fits are all collected. -/
theorem collect_toDigits {n : Nat} (h : n ≤ maxSignificand) :
    collect 0 (Nat.toDigits 10 n) = (n, 0) := by
  have hMax : Nat.ofDigitChars 10 (Nat.toDigits 10 n) 0 ≤ maxSignificand := by
    rw [Nat.ofDigitChars_ten_toDigits]
    exact h
  rw [collect_eq _ _ hMax, Nat.ofDigitChars_ten_toDigits]

/-- A whole number in range has its own value. -/
theorem value?_ofInt {i : Int} (hLow : -twoPower 63 ≤ i) (hHigh : i ≤ maxSignificand) :
    (ofInt i).value? = some (.int i) := by
  have hMax : twoPower 63 ≤ maxSignificand := by decide
  have hCollect : collect 0 (Nat.toDigits 10 i.natAbs) = (i.natAbs, 0) :=
    collect_toDigits (by omega)
  unfold value? ofInt
  simp only [hCollect]
  by_cases hNegative : i < 0
  · have hMagnitude : i.natAbs ≠ 0 ∧ i.natAbs ≤ twoPower 63 := by omega
    have hValue : -(i.natAbs : Int) = i := by omega
    rw [if_neg (by simp [hNegative]), if_pos ⟨trivial, hMagnitude⟩, hValue]
  · have hValue : (i.natAbs : Int) = i := by omega
    rw [if_pos (by simp [hNegative]), hValue]

end Numeral

namespace Json

/-- A text with which no number goes on. -/
def EndsNumber (rest : List Char) : Prop :=
  ∀ c tail, rest = c :: tail → c.isDigit = false ∧ c ≠ '.' ∧ c ≠ 'e' ∧ c ≠ 'E'

/-- The digits of a number end where no number goes on. -/
theorem takeWhile_isDigit_append {shown rest : List Char} (hShown : ∀ c ∈ shown, c.isDigit)
    (hRest : EndsNumber rest) :
    (shown ++ rest).takeWhile Char.isDigit = shown ∧
      (shown ++ rest).dropWhile Char.isDigit = rest := by
  rw [List.takeWhile_append_of_pos hShown, List.dropWhile_append_of_pos hShown]
  cases rest with
  | nil => simp
  | cons c tail => simp [(hRest c tail rfl).1]

theorem readFraction_of_endsNumber {rest : List Char} (h : EndsNumber rest) :
    readFraction rest = .ok ([], rest) := by
  cases rest with
  | nil => rfl
  | cons c tail =>
      have hPoint := (h c tail rfl).2.1
      unfold readFraction
      split
      · simp_all
      · rfl

theorem readExponent_of_endsNumber {rest : List Char} (h : EndsNumber rest) :
    readExponent rest = .ok (none, rest) := by
  cases rest with
  | nil => rfl
  | cons c tail =>
      obtain ⟨-, -, hLower, hUpper⟩ := h c tail rfl
      simp [readExponent, hLower, hUpper]

/-- The digits of a positive number start with no zero. -/
theorem head?_toDigits_ne_zero {n : Nat} (h : 0 < n) : (Nat.toDigits 10 n).head? ≠ some '0' := by
  induction n using Nat.strongRecOn with
  | ind n ih =>
      rw [Nat.toDigits_eq_if (by decide)]
      split
      · simp only [List.head?_cons, ne_eq, Option.some.injEq, Nat.digitChar_eq_zero]
        omega
      · have hTens := ih (n / 10) (by omega) (by omega)
        rw [List.head?_append]
        cases hDigits : Nat.toDigits 10 (n / 10) with
        | nil => exact absurd hDigits Nat.toDigits_ne_nil
        | cons c tail =>
            rw [hDigits] at hTens
            exact hTens

/-- The whole part of a numeral is read back. -/
theorem readWhole_toDigits (n : Nat) {rest : List Char} (h : EndsNumber rest) :
    readWhole (Nat.toDigits 10 n ++ rest) = .ok (Nat.toDigits 10 n, rest) := by
  have hShown : ∀ c ∈ Nat.toDigits 10 n, c.isDigit := fun c hc =>
    Nat.isDigit_of_mem_toDigits (by decide) (by decide) hc
  obtain ⟨hTake, hDrop⟩ := takeWhile_isDigit_append hShown h
  unfold readWhole digits
  rw [hTake, hDrop]
  simp only
  split
  · next hNil => exact absurd hNil Nat.toDigits_ne_nil
  · next c tail hZero =>
      have hPositive : 0 < n := by
        cases n with
        | zero => simp at hZero
        | succ n => omega
      exact absurd (congrArg List.head? hZero) (head?_toDigits_ne_zero hPositive)
  · rfl

theorem toDigits_eq_cons (n : Nat) :
    ∃ c tail, Nat.toDigits 10 n = c :: tail ∧ c.isDigit = true := by
  cases hDigits : Nat.toDigits 10 n with
  | nil => exact absurd hDigits Nat.toDigits_ne_nil
  | cons c tail =>
      have hMem : c ∈ Nat.toDigits 10 n := by simp [hDigits]
      exact ⟨c, tail, rfl, Nat.isDigit_of_mem_toDigits (by decide) (by decide) hMem⟩

/-- A whole number is written as a sign and its digits. -/
theorem render_ofInt (i : Int) :
    (Numeral.ofInt i).render = (if i < 0 then ['-'] else []) ++ Nat.toDigits 10 i.natAbs := by
  simp [Numeral.ofInt, Numeral.render]

/-- The numeral of a whole number is read back. -/
theorem readNumeral_ofInt (i : Int) {rest : List Char} (h : EndsNumber rest) :
    readNumeral ((Numeral.ofInt i).render ++ rest) = .ok (.ofInt i, rest) := by
  obtain ⟨c, tail, hDigits, hDigit⟩ := toDigits_eq_cons i.natAbs
  have hSign : c ≠ '-' := by
    rintro rfl
    cases hDigit
  have hWhole := readWhole_toDigits i.natAbs h
  rw [hDigits, List.cons_append] at hWhole
  rw [render_ofInt, hDigits]
  unfold readNumeral
  by_cases hNegative : i < 0 <;>
    simp [hNegative, hSign, hWhole, readFraction_of_endsNumber h, readExponent_of_endsNumber h,
      Numeral.ofInt, hDigits, bind, Except.bind, pure, Except.pure]

theorem hexValue?_hexDigit {n : Nat} (h : n < 16) : hexValue? (hexDigit n) = some n := by
  have hAll : ∀ n < 16, hexValue? (hexDigit n) = some n := by decide
  exact hAll n h

/-- The escape of a character is read as the character. -/
theorem readQuoted_escape (content : List Char) (c : Char) (rest : List Char) :
    readQuoted ⟨content, none, none⟩ (escape c ++ rest) =
      readQuoted ⟨c :: content, none, none⟩ rest := by
  unfold escape
  -- the seven characters with an escape of their own
  iterate 7
    split
    · next h =>
        subst h
        simp [readQuoted, unescape?, Quoting.push, Quoting.unpaired]
  split
  · next h =>
      have hCode : hexCode? '0' '0' (hexDigit (c.toNat / 16)) (hexDigit (c.toNat % 16)) =
          some c.toNat := by
        have hZero : hexValue? '0' = some 0 := by decide
        have hFirst := hexValue?_hexDigit (show c.toNat / 16 < 16 by omega)
        have hSecond := hexValue?_hexDigit (show c.toNat % 16 < 16 by omega)
        simp [hexCode?, hZero, hFirst, hSecond]
        omega
      have hHigh : isHighSurrogate c.toNat = false := by
        simp [isHighSurrogate]
        omega
      have hLow : isLowSurrogate c.toNat = false := by
        simp [isLowSurrogate]
        omega
      simp [readQuoted, hCode, Quoting.pushCode, Quoting.push, Quoting.unpaired, hHigh, hLow]
  · next hQuote hBackslash _ _ _ _ _ hControl =>
      rw [List.singleton_append, readQuoted]
      · simp [hControl, Quoting.push, Quoting.unpaired]
      all_goals simp [hQuote, hBackslash]

/-- Escaped characters are read back one by one up to the closing quote. -/
theorem readQuoted_flatMap_escape (content cs rest : List Char) :
    readQuoted ⟨content, none, none⟩ (cs.flatMap escape ++ '"' :: rest) =
      .closed (.ok (String.ofList (content.reverse ++ cs))) rest := by
  induction cs generalizing content with
  | nil => simp [readQuoted, Quoting.close, Quoting.unpaired]
  | cons c cs ih =>
      rw [List.flatMap_cons, List.append_assoc, readQuoted_escape, ih]
      simp

/-- A quoted text is read back. -/
theorem readQuoted_quote (s : String) (rest : List Char) :
    readQuoted {} (s.toList.flatMap escape ++ '"' :: rest) = .closed (.ok s) rest := by
  rw [readQuoted_flatMap_escape]
  simp

theorem quote_append (s : String) (rest : List Char) :
    quote s ++ rest = '"' :: (s.toList.flatMap escape ++ '"' :: rest) := by
  simp [quote]

/-- A complete tree as it is read. -/
def asRead : {p : Part} → Json Empty p → Json Fault p
  | _, .null => .null
  | _, .bool b => .bool b
  | _, .number n => .number n
  | _, .text s => .text s
  | _, .array items => .array items.asRead
  | _, .object members => .object members.asRead
  | _, .noItems => .noItems
  | _, .item value rest => .item value.asRead rest.asRead
  | _, .noMembers => .noMembers
  | _, .member key value rest => .member key value.asRead rest.asRead
  | _, .unkeyed why _ _ => nomatch why
  | _, .fault why => nomatch why

/-- A tree all of whose numbers are whole and read exactly. -/
def IsExact : {p : Part} → Json Empty p → Prop
  | _, .number n => n.IsExact
  | _, .array items => items.IsExact
  | _, .object members => members.IsExact
  | _, .item value rest => value.IsExact ∧ rest.IsExact
  | _, .member _ value rest => value.IsExact ∧ rest.IsExact
  | _, _ => True

/-- All numbers of a tree have a property. -/
def AllNumbers (P : Numeral → Prop) : {p : Part} → Json Empty p → Prop
  | _, .number n => P n
  | _, .array items => items.AllNumbers P
  | _, .object members => members.AllNumbers P
  | _, .item value rest => value.AllNumbers P ∧ rest.AllNumbers P
  | _, .member _ value rest => value.AllNumbers P ∧ rest.AllNumbers P
  | _, _ => True

/-- What holds for numbers that are read exactly holds for all numbers of a tree of these. -/
theorem IsExact.allNumbers {P : Numeral → Prop} (hP : ∀ n : Numeral, n.IsExact → P n) {p : Part}
    {tree : Json Empty p} (h : tree.IsExact) : tree.AllNumbers P := by
  induction tree with
  | number n => exact hP n h
  | array items ih => exact ih h
  | object members ih => exact ih h
  | item value rest ihValue ihRest => exact ⟨ihValue h.1, ihRest h.2⟩
  | member key value rest ihValue ihRest => exact ⟨ihValue h.1, ihRest h.2⟩
  | _ => trivial

@[simp] theorem allNumbers_text {P : Numeral → Prop} {s : String} :
    (Json.text s : Document).AllNumbers P := trivial

@[simp] theorem allNumbers_bool {P : Numeral → Prop} {b : Bool} :
    (Json.bool b : Document).AllNumbers P := trivial

@[simp] theorem allNumbers_int {i : Int} : (Json.int i).AllNumbers Numeral.IsWhole := ⟨i, rfl⟩

@[simp] theorem allNumbers_list {P : Numeral → Prop} {values : List Document} :
    (Json.list values).AllNumbers P ↔ ∀ value ∈ values, value.AllNumbers P := by
  induction values with
  | nil => simp [Json.list, AllNumbers]
  | cons value values ih =>
      rw [List.forall_mem_cons, ← ih]
      rfl

@[simp] theorem allNumbers_record {P : Numeral → Prop} {members : List (String × Document)} :
    (Json.record members).AllNumbers P ↔ ∀ entry ∈ members, entry.2.AllNumbers P := by
  induction members with
  | nil => simp [Json.record, AllNumbers]
  | cons entry members ih =>
      rw [List.forall_mem_cons, ← ih]
      rfl

/-- A layout that puts nothing but blanks between the parts of a text. -/
structure Layout.IsBlank (layout : Layout) : Prop where
  newline : ∀ depth, ∀ c ∈ layout.newline depth, isGap c = true
  colon : ∃ gap, layout.colon = ':' :: gap ∧ ∀ c ∈ gap, isGap c = true

theorem isBlank_pretty : Layout.pretty.IsBlank where
  newline := by
    intro depth c hc
    rcases List.mem_cons.mp hc with rfl | hc
    · rfl
    · rw [List.eq_of_mem_replicate hc]
      rfl
  colon := ⟨[' '], rfl, by simp [isGap]⟩

/-- The end of an array or object is on the line of its start, or behind blanks. -/
theorem Layout.IsBlank.ending {layout : Layout} (h : layout.IsBlank) (done : Bool) (depth : Nat) :
    ∀ c ∈ (if done then [] else layout.newline depth), isGap c = true := by
  cases done with
  | true => simp
  | false => exact h.newline depth

theorem skipGap_append {gap : List Char} (hGap : ∀ c ∈ gap, isGap c = true) (rest : List Char) :
    skipGap (gap ++ rest) = skipGap rest :=
  List.dropWhile_append_of_pos hGap

theorem skipGap_cons {c : Char} (h : isGap c = false) (rest : List Char) :
    skipGap (c :: rest) = c :: rest := by
  simp [skipGap, h]

theorem skipGap_append_cons {gap : List Char} (hGap : ∀ c ∈ gap, isGap c = true) {c : Char}
    (h : isGap c = false) (rest : List Char) : skipGap (gap ++ c :: rest) = c :: rest := by
  rw [skipGap_append hGap, skipGap_cons h]

theorem skipGap_skipGap (cs : List Char) : skipGap (skipGap cs) = skipGap cs := by
  induction cs with
  | nil => rfl
  | cons c cs ih =>
      cases h : isGap c with
      | true => simpa [skipGap, h] using ih
      | false => rw [skipGap_cons h, skipGap_cons h]

/-! The steps of reading. -/

section Steps

attribute [local simp] readPart

/-- Blanks in front of a part do not matter. -/
theorem readPart_skipGap (fuel : Nat) (p : Part) (cs : List Char) :
    readPart fuel p (skipGap cs) = readPart fuel p cs := by
  cases fuel with
  | zero => rfl
  | succ fuel => cases p <;> simp only [readPart, skipGap_skipGap]

theorem readPart_append {gap : List Char} (hGap : ∀ c ∈ gap, isGap c = true) (fuel : Nat)
    (p : Part) (rest : List Char) : readPart fuel p (gap ++ rest) = readPart fuel p rest := by
  rw [← readPart_skipGap, skipGap_append hGap, readPart_skipGap]

theorem isGap_iff {c : Char} : isGap c = true ↔ c = ' ' ∨ c = '\n' ∨ c = '\t' ∨ c = '\r' := by
  simp [isGap, or_assoc]

theorem isGap_of_isDigit {c : Char} (h : c.isDigit = true) : isGap c = false := by
  cases hGap : isGap c with
  | false => rfl
  | true => rcases isGap_iff.mp hGap with rfl | rfl | rfl | rfl <;> cases h

/-- A value that starts with a sign or a digit is a number. -/
theorem readPart_numeral {c : Char} (h : c = '-' ∨ c.isDigit = true) (fuel : Nat)
    (rest : List Char) :
    readPart (fuel + 1) .value (c :: rest) =
      .leaf ((readNumeral (c :: rest)).map fun (n, rest) => (.number n, rest)) := by
  have hNot : ∀ d : Char, d ≠ '-' → d.isDigit = false → c ≠ d := by
    rintro d hSign hDigit rfl
    rcases h with h | h
    · exact hSign h
    · rw [hDigit] at h
      cases h
  have hBlank : isGap c = false := by
    rcases h with rfl | h
    · rfl
    · exact isGap_of_isDigit h
  have hQuote := hNot '"' (by decide) rfl
  have hArray := hNot '[' (by decide) rfl
  have hObject := hNot '\x7b' (by decide) rfl
  have hTrue := hNot 't' (by decide) rfl
  have hFalse := hNot 'f' (by decide) rfl
  have hNull := hNot 'n' (by decide) rfl
  simp [skipGap_cons hBlank, h]

variable {fuel : Nat} {cs tail rest after behind : List Char} {c : Char} {key : String}
  {value : Reading} {items : Json Fault .items} {members : Json Fault .members}
  {left : Option (List Char)}

theorem readPart_items_done (hStart : skipGap cs = ']' :: rest) :
    readPart (fuel + 1) .items cs = (.noItems, some rest) := by
  simp [hStart]

/-- The last item of an array: the closing bracket follows. -/
theorem readPart_items_last (hStart : skipGap cs = c :: tail) (hItem : c ≠ ']')
    (hValue : readPart fuel .value (c :: tail) = (value, some rest))
    (hEnd : skipGap rest = ']' :: after) :
    readPart (fuel + 1) .items cs = (.item value .noItems, some after) := by
  simp [hStart, hItem, hValue, hEnd]

/-- An item with another one behind it: the two are parted by a comma. -/
theorem readPart_items_more (hStart : skipGap cs = c :: tail) (hItem : c ≠ ']')
    (hValue : readPart fuel .value (c :: tail) = (value, some (',' :: after)))
    (hNext : ∃ d next, skipGap after = d :: next ∧ d ≠ ']')
    (hItems : readPart fuel .items after = (items, left)) :
    readPart (fuel + 1) .items cs = (.item value items, left) := by
  obtain ⟨d, next, hNext, hBracket⟩ := hNext
  rw [← readPart_skipGap, hNext] at hItems
  have hComma : isGap ',' = false := rfl
  simp [hStart, hItem, hValue, skipGap_cons hComma, hNext, hBracket, hItems]

theorem readPart_members_done (hStart : skipGap cs = '\x7d' :: rest) :
    readPart (fuel + 1) .members cs = (.noMembers, some rest) := by
  simp [hStart]

/-- The last member of an object: the closing brace follows. -/
theorem readPart_members_last (hStart : skipGap cs = '"' :: tail)
    (hKey : readQuoted {} tail = .closed (.ok key) (':' :: rest))
    (hValue : readPart fuel .value rest = (value, some after))
    (hEnd : skipGap after = '\x7d' :: behind) :
    readPart (fuel + 1) .members cs = (.member key value .noMembers, some behind) := by
  have hColon : isGap ':' = false := rfl
  simp [hStart, hKey, hValue, hEnd, skipGap_cons hColon]

/-- A member with another one behind it: the two are parted by a comma. -/
theorem readPart_members_more (hStart : skipGap cs = '"' :: tail)
    (hKey : readQuoted {} tail = .closed (.ok key) (':' :: rest))
    (hValue : readPart fuel .value rest = (value, some (',' :: after)))
    (hNext : ∃ next, skipGap after = '"' :: next)
    (hMembers : readPart fuel .members after = (members, left)) :
    readPart (fuel + 1) .members cs = (.member key value members, left) := by
  obtain ⟨next, hNext⟩ := hNext
  rw [← readPart_skipGap, hNext] at hMembers
  have hColon : isGap ':' = false := rfl
  have hComma : isGap ',' = false := rfl
  simp [hStart, hKey, hValue, skipGap_cons hColon, skipGap_cons hComma, hNext, hMembers]

end Steps

/-- No number goes on with a comma or a closing bracket, nor with blanks before one. -/
theorem endsNumber_append_cons {gap : List Char} (hGap : ∀ c ∈ gap, isGap c = true) {c : Char}
    (h : c = ',' ∨ c = ']' ∨ c = '\x7d') (rest : List Char) : EndsNumber (gap ++ c :: rest) := by
  have hBlank : ∀ d, isGap d = true → d.isDigit = false ∧ d ≠ '.' ∧ d ≠ 'e' ∧ d ≠ 'E' := by
    intro d hd
    rcases isGap_iff.mp hd with rfl | rfl | rfl | rfl <;> decide
  intro d tail hText
  cases gap with
  | nil =>
      cases hText
      rcases h with rfl | rfl | rfl <;> decide
  | cons first gap =>
      cases hText
      exact hBlank _ (hGap _ List.mem_cons_self)

theorem endsNumber_cons {c : Char} (h : c = ',' ∨ c = ']' ∨ c = '\x7d') (rest : List Char) :
    EndsNumber (c :: rest) := by
  have hGap : ∀ c ∈ ([] : List Char), isGap c = true := by simp
  exact endsNumber_append_cons hGap h rest

section ReadsBack

attribute [local simp] render

/-- What a value is printed as starts with neither a blank nor a bracket that closes. -/
theorem render_eq_cons (layout : Layout) (depth : Nat) {v : Json Empty .value}
    (h : v.AllNumbers Numeral.IsWhole) :
    ∃ c tail, render layout depth v = c :: tail ∧ isGap c = false ∧ c ≠ ']' := by
  cases v with
  | null => exact ⟨_, _, rfl, rfl, by decide⟩
  | bool b => cases b <;> exact ⟨_, _, rfl, rfl, by decide⟩
  | number n =>
      obtain ⟨i, rfl⟩ := h
      obtain ⟨c, tail, hDigits, hDigit⟩ := toDigits_eq_cons i.natAbs
      rw [render, render_ofInt, hDigits]
      by_cases hNegative : i < 0
      · exact ⟨'-', c :: tail, by simp [hNegative], rfl, by decide⟩
      · refine ⟨c, tail, by simp [hNegative], ?_, ?_⟩
        · exact isGap_of_isDigit hDigit
        · rintro rfl
          cases hDigit
  | text s => exact ⟨_, _, rfl, rfl, by decide⟩
  | array items => exact ⟨_, _, rfl, rfl, by decide⟩
  | object members => exact ⟨_, _, rfl, rfl, by decide⟩
  | fault why => cases why

/-- A tree whose text reads as the tree. The text of items and members goes on with the bracket
that closes them. -/
def ReadsBack (layout : Layout) : {p : Part} → Json Empty p → Prop
  | .value, v => ∀ depth fuel rest, 2 * (render layout depth v).length ≤ fuel + 1 →
      EndsNumber rest → readPart fuel .value (render layout depth v ++ rest) = (v.asRead, some rest)
  | .items, items => ∀ depth fuel gap rest, (∀ c ∈ gap, isGap c = true) →
      2 * (render layout depth items).length + 2 ≤ fuel →
      readPart fuel .items (render layout depth items ++ (gap ++ ']' :: rest)) =
        (items.asRead, some rest)
  | .members, members => ∀ depth fuel gap rest, (∀ c ∈ gap, isGap c = true) →
      2 * (render layout depth members).length + 2 ≤ fuel →
      readPart fuel .members (render layout depth members ++ (gap ++ '\x7d' :: rest)) =
        (members.asRead, some rest)

variable {layout : Layout} (hLayout : layout.IsBlank)
include hLayout

/-- Behind the blanks, the text of an item is the text of its value. -/
theorem skipGap_render_item {value : Json Empty .value}
    (hWhole : value.AllNumbers Numeral.IsWhole) (rest : Json Empty .items) (depth : Nat)
    (behind : List Char) :
    ∃ c tail, render layout depth value = c :: tail ∧ c ≠ ']' ∧
      skipGap (render layout depth (.item value rest) ++ behind) =
        c :: (tail ++ ((if rest.isDone then [] else [',']) ++
          (render layout depth rest ++ behind))) := by
  obtain ⟨c, tail, hHead, hBlank, hBracket⟩ := render_eq_cons layout depth hWhole
  refine ⟨c, tail, hHead, hBracket, ?_⟩
  rw [render, hHead]
  simp only [List.append_assoc, List.cons_append]
  exact skipGap_append_cons (hLayout.newline depth) hBlank _

/-- An item reads back if its value and the items behind it do. -/
theorem readsBack_item {value : Json Empty .value} {rest : Json Empty .items}
    (hWhole : value.AllNumbers Numeral.IsWhole ∧ rest.AllNumbers Numeral.IsWhole)
    (hValue : value.ReadsBack layout) (hRest : rest.ReadsBack layout) :
    (Json.item value rest).ReadsBack layout := by
  intro depth fuel gap behind hGap hFuel
  obtain ⟨fuel, rfl⟩ : ∃ more, fuel = more + 1 := ⟨fuel - 1, by omega⟩
  obtain ⟨c, tail, hHead, hBracket, hStart⟩ :=
    skipGap_render_item hLayout hWhole.1 rest depth (gap ++ ']' :: behind)
  rw [render] at hFuel
  simp only [List.length_append] at hFuel
  cases rest with
  | noItems =>
      have hEnds := endsNumber_append_cons hGap (Or.inr (Or.inl rfl)) behind
      have hRead := hValue depth fuel _ (by omega) hEnds
      rw [hHead, List.cons_append] at hRead
      exact readPart_items_last hStart hBracket hRead (skipGap_append_cons hGap rfl behind)
  | item next others =>
      have hLength : 0 < (render layout depth value).length := by simp [hHead]
      have hEnds := endsNumber_cons (Or.inl rfl)
        (render layout depth (.item next others) ++ (gap ++ ']' :: behind))
      have hRead := hValue depth fuel _ (by omega) hEnds
      rw [hHead, List.cons_append] at hRead
      obtain ⟨d, nextTail, -, hNextBracket, hNext⟩ :=
        skipGap_render_item hLayout hWhole.2.1 others depth (gap ++ ']' :: behind)
      exact readPart_items_more hStart hBracket hRead ⟨d, _, hNext, hNextBracket⟩
        (hRest depth fuel gap behind hGap (by omega))
  | fault why => cases why

/-- Behind the blanks, the text of a member is its key, a colon and the text of its value. -/
theorem skipGap_render_member (key : String) (value : Json Empty .value)
    (rest : Json Empty .members) (depth : Nat) (behind : List Char) :
    ∃ gap inner, (∀ c ∈ gap, isGap c = true) ∧
      skipGap (render layout depth (.member key value rest) ++ behind) = '"' :: inner ∧
      readQuoted {} inner = .closed (.ok key) (':' :: (gap ++ (render layout depth value ++
        ((if rest.isDone then [] else [',']) ++ (render layout depth rest ++ behind))))) := by
  obtain ⟨gap, hColon, hGap⟩ := hLayout.colon
  refine ⟨gap, _, hGap, ?_, readQuoted_quote key _⟩
  rw [render, hColon]
  simp only [List.append_assoc, quote_append, List.cons_append]
  exact skipGap_append_cons (hLayout.newline depth) rfl _

/-- A member reads back if its value and the members behind it do. -/
theorem readsBack_member {key : String} {value : Json Empty .value} {rest : Json Empty .members}
    (hValue : value.ReadsBack layout) (hRest : rest.ReadsBack layout) :
    (Json.member key value rest).ReadsBack layout := by
  intro depth fuel gap behind hGap hFuel
  obtain ⟨fuel, rfl⟩ : ∃ more, fuel = more + 1 := ⟨fuel - 1, by omega⟩
  obtain ⟨blank, inner, hBlank, hStart, hKey⟩ :=
    skipGap_render_member hLayout key value rest depth (gap ++ '\x7d' :: behind)
  have hQuote : 0 < (quote key).length := by simp [quote]
  rw [render] at hFuel
  simp only [List.length_append] at hFuel
  cases rest with
  | noMembers =>
      have hEnds := endsNumber_append_cons hGap (Or.inr (Or.inr rfl)) behind
      have hRead := hValue depth fuel _ (by omega) hEnds
      rw [← readPart_append hBlank] at hRead
      exact readPart_members_last hStart hKey hRead (skipGap_append_cons hGap rfl behind)
  | member nextKey next others =>
      have hEnds := endsNumber_cons (Or.inl rfl)
        (render layout depth (.member nextKey next others) ++ (gap ++ '\x7d' :: behind))
      have hRead := hValue depth fuel _ (by omega) hEnds
      rw [← readPart_append hBlank] at hRead
      obtain ⟨-, nextInner, -, hNext, -⟩ :=
        skipGap_render_member hLayout nextKey next others depth (gap ++ '\x7d' :: behind)
      exact readPart_members_more hStart hKey hRead ⟨nextInner, hNext⟩
        (hRest depth fuel gap behind hGap (by omega))
  | unkeyed why => cases why
  | fault why => cases why

omit hLayout in
/-- A value that reads back with some fuel left: no text of a value is empty. -/
theorem readsBack_of_fuel {v : Json Empty .value} (hWhole : v.AllNumbers Numeral.IsWhole)
    (h : ∀ depth fuel rest, 2 * (render layout depth v).length ≤ fuel + 2 → EndsNumber rest →
      readPart (fuel + 1) .value (render layout depth v ++ rest) = (v.asRead, some rest)) :
    v.ReadsBack layout := by
  intro depth fuel rest hFuel hEnds
  obtain ⟨c, tail, hHead, -, -⟩ := render_eq_cons layout depth hWhole
  have hLength : 0 < (render layout depth v).length := by simp [hHead]
  cases fuel with
  | zero => omega
  | succ fuel => exact h depth fuel rest hFuel hEnds

omit hLayout in
/-- The text of a whole number reads back behind anything that is no number. -/
theorem readsBack_number {n : Numeral} (hWhole : n.IsWhole) : (Json.number n).ReadsBack layout := by
  refine readsBack_of_fuel hWhole fun depth fuel rest _ hEnds => ?_
  obtain ⟨i, rfl⟩ := hWhole
  have hRead := readNumeral_ofInt i hEnds
  obtain ⟨c, tail, hHead, hNumeral⟩ :
      ∃ c tail, (Numeral.ofInt i).render = c :: tail ∧ (c = '-' ∨ c.isDigit = true) := by
    obtain ⟨c, tail, hDigits, hDigit⟩ := toDigits_eq_cons i.natAbs
    rw [render_ofInt, hDigits]
    split
    · exact ⟨'-', c :: tail, rfl, .inl rfl⟩
    · exact ⟨c, tail, rfl, .inr hDigit⟩
  rw [hHead, List.cons_append] at hRead
  rw [render, hHead, List.cons_append, readPart_numeral hNumeral, hRead]
  rfl

/-- What is printed of a tree reads as the tree. -/
theorem readsBack {p : Part} {tree : Json Empty p} (h : tree.AllNumbers Numeral.IsWhole) :
    tree.ReadsBack layout := by
  induction tree with
  | null =>
      refine readsBack_of_fuel h fun depth fuel rest _ _ => ?_
      simp [readPart, skipGap, isGap, readWord, Read.leaf, Except.map, asRead]
  | bool b =>
      refine readsBack_of_fuel h fun depth fuel rest _ _ => ?_
      cases b <;> simp [readPart, skipGap, isGap, readWord, Read.leaf, Except.map, asRead]
  | number n => exact readsBack_number h
  | text s =>
      refine readsBack_of_fuel h fun depth fuel rest _ _ => ?_
      have hBlank : isGap '"' = false := rfl
      rw [render, quote_append]
      simp [readPart, skipGap_cons hBlank, readQuoted_quote, asRead]
  | array items ih =>
      refine readsBack_of_fuel h fun depth fuel rest hFuel _ => ?_
      have hBlank : isGap '[' = false := rfl
      have hGap := hLayout.ending items.isDone depth
      have hItems := ih h (depth + 1) fuel _ rest hGap (by simp at hFuel; omega)
      rw [render]
      simp only [List.cons_append, List.append_assoc, List.nil_append]
      simp [readPart, skipGap_cons hBlank, hItems, asRead]
  | object members ih =>
      refine readsBack_of_fuel h fun depth fuel rest hFuel _ => ?_
      have hBlank : isGap '\x7b' = false := rfl
      have hGap := hLayout.ending members.isDone depth
      have hMembers := ih h (depth + 1) fuel _ rest hGap (by simp at hFuel; omega)
      rw [render]
      simp only [List.cons_append, List.append_assoc, List.nil_append]
      simp [readPart, skipGap_cons hBlank, hMembers, asRead]
  | noItems =>
      intro depth fuel gap rest hGap hFuel
      obtain ⟨fuel, rfl⟩ : ∃ more, fuel = more + 1 := ⟨fuel - 1, by omega⟩
      exact readPart_items_done (skipGap_append_cons hGap rfl rest)
  | item value rest ihValue ihRest =>
      exact readsBack_item hLayout h (ihValue h.1) (ihRest h.2)
  | noMembers =>
      intro depth fuel gap rest hGap hFuel
      obtain ⟨fuel, rfl⟩ : ∃ more, fuel = more + 1 := ⟨fuel - 1, by omega⟩
      exact readPart_members_done (skipGap_append_cons hGap rfl rest)
  | member key value rest ihValue ihRest =>
      exact readsBack_member hLayout (ihValue h.1) (ihRest h.2)
  | unkeyed why => cases why
  | fault why => cases why

end ReadsBack

/-- A document whose numbers are whole reads back from its text. -/
theorem read_pretty_of_whole {document : Document} (h : document.AllNumbers Numeral.IsWhole) :
    read document.pretty = (document.asRead, false) := by
  have hEnds : EndsNumber [] := fun _ _ h => nomatch h
  have hRead := readsBack isBlank_pretty h 0
    (2 * (render .pretty 0 document).length + 1) [] (by omega) hEnds
  rw [List.append_nil] at hRead
  simp [read, pretty, hRead, skipGap]

/-- The pretty text of a document reads as the document, and nothing follows it. -/
theorem read_pretty {document : Document} (h : document.IsExact) :
    read document.pretty = (document.asRead, false) := by
  apply read_pretty_of_whole
  exact h.allNumbers fun _ hExact => hExact.isWhole

end Json
end SetupLint
