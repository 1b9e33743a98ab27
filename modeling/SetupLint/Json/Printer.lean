import SetupLint.Json.Basic

/-! JSON texts. The pretty form has one item or member on a line, indented by
two blanks for each open array or object, and writes empty ones as `[]` and
as an empty pair of braces; the compact form has no blanks at all. -/
namespace SetupLint.Json

def hexDigit (n : Nat) : Char := Nat.digitChar n

/-- A character inside quotes. Quotes, backslashes and control characters are
escaped, everything else stands for itself. -/
def escape (c : Char) : List Char :=
  if c = '"' then ['\\', '"']
  else if c = '\\' then ['\\', '\\']
  else if c = '\x08' then ['\\', 'b']
  else if c = '\x0c' then ['\\', 'f']
  else if c = '\n' then ['\\', 'n']
  else if c = '\r' then ['\\', 'r']
  else if c = '\t' then ['\\', 't']
  else if c.toNat < 0x20 then
    ['\\', 'u', '0', '0', hexDigit (c.toNat / 16), hexDigit (c.toNat % 16)]
  else [c]

def quote (s : String) : List Char := '"' :: (s.toList.flatMap escape ++ ['"'])

/-- The blanks of a JSON text: what stands before each item or member, and
before the end of an array or object that is not empty, at a given nesting, and
what stands after a key. -/
structure Layout where
  newline : Nat → List Char
  colon : List Char

/-- One item or member on a line. -/
def Layout.pretty : Layout where
  newline depth := '\n' :: List.replicate (2 * depth) ' '
  colon := [':', ' ']

/-- No blanks. -/
def Layout.compact : Layout where
  newline _ := []
  colon := [':']

/-- The text of a tree inside `depth` open arrays and objects. -/
def render (layout : Layout) (depth : Nat) : {p : Part} → Json Empty p → List Char
  | _, .null => ['n', 'u', 'l', 'l']
  | _, .bool true => ['t', 'r', 'u', 'e']
  | _, .bool false => ['f', 'a', 'l', 's', 'e']
  | _, .number n => n.render
  | _, .text s => quote s
  | _, .array items =>
    '[' :: (render layout (depth + 1) items ++
      (if items.isDone then [] else layout.newline depth) ++ [']'])
  | _, .object members =>
    '\x7b' :: (render layout (depth + 1) members ++
      (if members.isDone then [] else layout.newline depth) ++ ['\x7d'])
  | _, .noItems => []
  | _, .item value rest =>
    layout.newline depth ++ render layout depth value ++
      (if rest.isDone then [] else [',']) ++ render layout depth rest
  | _, .noMembers => []
  | _, .member key value rest =>
    layout.newline depth ++ quote key ++ layout.colon ++ render layout depth value ++
      (if rest.isDone then [] else [',']) ++ render layout depth rest
  | _, .unkeyed why _ _ => nomatch why
  | _, .fault why => nomatch why

def pretty (document : Document) : String := String.ofList (render .pretty 0 document)

def compact (document : Document) : String := String.ofList (render .compact 0 document)

end SetupLint.Json
