import SetupLint.Json.Basic
import SetupLint.Text.Offset

/-! Reading JSON texts. A text that is not JSON still has a tree: it breaks off
with a fault where the text does. Whoever goes through the tree from left to
right therefore meets a mistake of spelling exactly where it stands, after all
that was fine before it. -/
namespace SetupLint.Json

/-- How a text fails to be JSON: it ends too early or has something else. -/
inductive Defect where
  | ended
  | malformed
deriving DecidableEq, Repr

/-- A place that cannot be read. What is only skipped is not looked at closely:
a text with an unpaired surrogate can be skipped, and a number that ends with
the input is then malformed and not ended. Where the name of a variant is
expected, anything that does not begin as a text is malformed from its first
character on. -/
structure Fault where
  onRead : Defect
  onSkip : Option Defect
  onName : Defect
deriving DecidableEq, Repr

/-- A JSON value as far as it can be read. -/
abbrev Reading := Json Fault .value

/-- The same defect whatever is expected. -/
def Fault.plain (defect : Defect) : Fault := ⟨defect, some defect, defect⟩

/-- The fault of a text that can be skipped but not read. -/
def Fault.ofContent (defect : Defect) : Fault := ⟨defect, none, defect⟩

/-- The fault of a word that breaks off. -/
def Fault.ofWord (defect : Defect) : Fault := ⟨defect, some defect, .malformed⟩

/-- The fault of a number that lacks digits before `rest`. -/
def Fault.ofNumeral (rest : List Char) : Fault :=
  if rest.isEmpty then ⟨.ended, some .malformed, .malformed⟩ else .plain .malformed

/-- Blanks between the parts of a JSON text. -/
def isGap (c : Char) : Bool := c == ' ' || c == '\n' || c == '\t' || c == '\r'

def skipGap (cs : List Char) : List Char := cs.dropWhile isGap

def hexValue? (c : Char) : Option Nat :=
  if '0' ≤ c ∧ c ≤ '9' then some (c.toNat - '0'.toNat)
  else if 'a' ≤ c ∧ c ≤ 'f' then some (c.toNat - 'a'.toNat + 10)
  else if 'A' ≤ c ∧ c ≤ 'F' then some (c.toNat - 'A'.toNat + 10)
  else none

def hexCode? (a b c d : Char) : Option Nat := do
  return (((← hexValue? a) * 16 + (← hexValue? b)) * 16 + (← hexValue? c)) * 16 + (← hexValue? d)

/-- The character written as a backslash and `c`. -/
def unescape? (c : Char) : Option Char :=
  match c with
  | '"' => some '"'
  | '\\' => some '\\'
  | '/' => some '/'
  | 'b' => some '\x08'
  | 'f' => some '\x0c'
  | 'n' => some '\n'
  | 'r' => some '\r'
  | 't' => some '\t'
  | _ => none

/-- A quoted text: its content and what follows the closing quote, or why it
is never closed. -/
inductive Quoted where
  | closed (content : Except Defect String) (rest : List Char)
  | unclosed (why : Fault)

def isHighSurrogate (code : Nat) : Bool := 0xD800 ≤ code && code ≤ 0xDBFF

def isLowSurrogate (code : Nat) : Bool := 0xDC00 ≤ code && code ≤ 0xDFFF

def surrogatePair (high low : Nat) : Char :=
  Char.ofNat ((high - 0xD800) * 0x400 + (low - 0xDC00) + 0x10000)

/-- The defect of an escape that lacks its four digits. The digits are looked
for in four bytes. -/
def shortEscape (rest : List Char) : Defect :=
  if Text.byteLength rest < 4 then .ended else .malformed

/-- What has been read of a quoted text: its characters in reverse, the first
half of a surrogate pair if the text breaks off behind one, and the first defect
that makes the content unreadable. -/
structure Quoting where
  content : List Char := []
  high : Option Nat := none
  bad : Option Defect := none

/-- Go on with anything but the second half of a pair. -/
def Quoting.unpaired (q : Quoting) : Quoting :=
  match q.high with
  | none => q
  | some _ => { q with high := none, bad := q.bad <|> some .malformed }

def Quoting.push (q : Quoting) (c : Char) : Quoting :=
  { q.unpaired with content := c :: q.unpaired.content }

def Quoting.pushCode (q : Quoting) (code : Nat) : Quoting :=
  match q.high with
  | some high =>
    if isLowSurrogate code then
      { q with content := surrogatePair high code :: q.content, high := none }
    else q.unpaired
  | none =>
    if isHighSurrogate code then { q with high := some code }
    else if isLowSurrogate code then { q with bad := q.bad <|> some .malformed }
    else q.push (Char.ofNat code)

/-- The text breaks off. -/
def Quoting.stop (q : Quoting) (defect : Defect) : Quoted :=
  .unclosed ⟨q.bad.getD defect, some defect, q.bad.getD defect⟩

def Quoting.close (q : Quoting) (rest : List Char) : Quoted :=
  match q.unpaired.bad with
  | none => .closed (.ok (String.ofList q.content.reverse)) rest
  | some defect => .closed (.error defect) rest

/-- Read on behind an opening quote. -/
def readQuoted (q : Quoting) : List Char → Quoted
  | [] => q.stop .ended
  | '"' :: rest => q.close rest
  | ['\\'] => q.stop .ended
  | '\\' :: 'u' :: a :: b :: c :: d :: rest =>
    match hexCode? a b c d with
    | none => q.stop .malformed
    | some code => readQuoted (q.pushCode code) rest
  | '\\' :: 'u' :: rest => q.stop (shortEscape rest)
  | '\\' :: c :: rest =>
    match unescape? c with
    | some c' => readQuoted (q.push c') rest
    | none => q.unpaired.stop .malformed
  | c :: rest =>
    if c.toNat < 0x20 then q.unpaired.stop .malformed else readQuoted (q.push c) rest

def digits (cs : List Char) : List Char := cs.takeWhile Char.isDigit

def natOfDigits (cs : List Char) : Nat := cs.foldl (fun n c => n * 10 + Numeral.digitValue c) 0

/-- Read the exponent of a number, if one follows. -/
def readExponent (cs : List Char) : Except Fault (Option Int × List Char) :=
  match cs with
  | c :: rest =>
    if c = 'e' ∨ c = 'E' then
      let (negative, rest) := match rest with
        | '-' :: rest => (true, rest)
        | '+' :: rest => (false, rest)
        | _ => (false, rest)
      let shown := digits rest
      let rest := rest.dropWhile Char.isDigit
      if shown.isEmpty then .error (.ofNumeral rest)
      else
        let size : Int := natOfDigits shown
        .ok (some (if negative then -size else size), rest)
    else .ok (none, cs)
  | [] => .ok (none, cs)

/-- Read the fraction of a number, if one follows. -/
def readFraction (cs : List Char) : Except Fault (List Char × List Char) :=
  match cs with
  | '.' :: rest =>
    let shown := digits rest
    let rest := rest.dropWhile Char.isDigit
    if shown.isEmpty then .error (.ofNumeral rest) else .ok (shown, rest)
  | _ => .ok ([], cs)

/-- Read the whole part of a number: one zero, or digits that start with none. -/
def readWhole (cs : List Char) : Except Fault (List Char × List Char) :=
  let shown := digits cs
  let rest := cs.dropWhile Char.isDigit
  match shown with
  | [] => .error (.ofNumeral rest)
  | '0' :: _ :: _ => .error (.plain .malformed)
  | _ => .ok (shown, rest)

def readNumeral (cs : List Char) : Except Fault (Numeral × List Char) := do
  let (negative, cs) := match cs with
    | '-' :: rest => (true, rest)
    | _ => (false, cs)
  let (whole, cs) ← readWhole cs
  let (fraction, cs) ← readFraction cs
  let (exponent, cs) ← readExponent cs
  return (⟨negative, whole, fraction, exponent⟩, cs)

def readWord : (word : List Char) → List Char → Except Fault (List Char)
  | [], cs => .ok cs
  | _ :: _, [] => .error (.ofWord .ended)
  | w :: word, c :: cs => if w = c then readWord word cs else .error (.ofWord .malformed)

/-- A tree together with the text behind it, unless reading stopped in it. -/
abbrev Read (p : Part) := Json Fault p × Option (List Char)

/-- Reading stops at a fault. -/
def Read.stop {p : Part} (why : Fault) : Read p := (.fault why, none)

/-- The reading of a leaf. -/
def Read.leaf (result : Except Fault (Reading × List Char)) : Read .value :=
  match result with
  | .ok (value, rest) => (value, some rest)
  | .error why => .stop why

/-- Read a tree of some part. Items and members are read from behind the
opening bracket or a separator, and with the closing bracket. Of two nested
steps one uses up a character, so twice the length of the text is enough fuel. -/
def readPart : (fuel : Nat) → (p : Part) → List Char → Read p
  | 0, _, _ => .stop (.plain .ended)
  | fuel + 1, .value, cs =>
    match skipGap cs with
    | [] => .stop (.plain .ended)
    | '"' :: rest =>
      match readQuoted {} rest with
      | .closed (.ok s) rest => (.text s, some rest)
      | .closed (.error defect) rest => (.fault (.ofContent defect), some rest)
      | .unclosed why => .stop why
    | '[' :: rest =>
      let (items, rest) := readPart fuel .items rest
      (.array items, rest)
    | '\x7b' :: rest =>
      let (members, rest) := readPart fuel .members rest
      (.object members, rest)
    | 't' :: rest => .leaf ((readWord ['r', 'u', 'e'] rest).map (.bool true, ·))
    | 'f' :: rest => .leaf ((readWord ['a', 'l', 's', 'e'] rest).map (.bool false, ·))
    | 'n' :: rest => .leaf ((readWord ['u', 'l', 'l'] rest).map (.null, ·))
    | c :: rest =>
      if c = '-' ∨ c.isDigit then
        .leaf ((readNumeral (c :: rest)).map fun (n, rest) => (.number n, rest))
      else .stop (.plain .malformed)
  | fuel + 1, .items, cs =>
    match skipGap cs with
    | [] => .stop (.plain .ended)
    | ']' :: rest => (.noItems, some rest)
    | cs =>
      match readPart fuel .value cs with
      | (value, none) => (.item value .noItems, none)
      | (value, some rest) =>
        match skipGap rest with
        | [] => (.item value (.fault (.plain .ended)), none)
        | ']' :: rest => (.item value .noItems, some rest)
        | ',' :: rest =>
          match skipGap rest with
          | [] => (.item value (.item (.fault (.plain .ended)) .noItems), none)
          | ']' :: _ => (.item value (.item (.fault (.plain .malformed)) .noItems), none)
          | rest =>
            let (items, rest) := readPart fuel .items rest
            (.item value items, rest)
        | _ => (.item value (.fault (.plain .malformed)), none)
  | fuel + 1, .members, cs =>
    match skipGap cs with
    | [] => .stop (.plain .ended)
    | '\x7d' :: rest => (.noMembers, some rest)
    | '"' :: rest =>
      match readQuoted {} rest with
      | .unclosed why => (.unkeyed why (.fault why) .noMembers, none)
      | .closed key rest =>
        let put (value : Reading) (members : Json Fault .members) : Json Fault .members :=
          match key with
          | .ok key => .member key value members
          | .error defect => .unkeyed (.ofContent defect) value members
        match skipGap rest with
        | [] => (put (.fault (.plain .ended)) .noMembers, none)
        | ':' :: rest =>
          match readPart fuel .value rest with
          | (value, none) => (put value .noMembers, none)
          | (value, some rest) =>
            match skipGap rest with
            | [] => (put value (.fault (.plain .ended)), none)
            | '\x7d' :: rest => (put value .noMembers, some rest)
            | ',' :: rest =>
              match skipGap rest with
              | '"' :: rest =>
                let (members, rest) := readPart fuel .members ('"' :: rest)
                (put value members, rest)
              | [] =>
                let why := Fault.plain .ended
                (put value (.unkeyed why (.fault why) .noMembers), none)
              | _ =>
                let why := Fault.plain .malformed
                (put value (.unkeyed why (.fault why) .noMembers), none)
            | _ => (put value (.fault (.plain .malformed)), none)
        | _ => (put (.fault (.plain .malformed)) .noMembers, none)
    | _ =>
      let why := Fault.plain .malformed
      (.unkeyed why (.fault why) .noMembers, none)

/-- Read a JSON text: its value, and whether anything but blanks follows it. -/
def read (text : String) : Reading × Bool :=
  let cs := text.toList
  let (value, rest) := readPart (2 * cs.length + 1) .value cs
  (value, !(skipGap (rest.getD [])).isEmpty)

def document? (text : String) : Option Document :=
  match read text with
  | (value, false) => value.complete?
  | (_, true) => none

end SetupLint.Json
