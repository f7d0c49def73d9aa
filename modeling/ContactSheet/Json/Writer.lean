import ContactSheet.Json.Basic

/-!
# Writing JSON texts

`Json.write` writes a value with nothing between its parts. Of the characters in a text only the quote, the backslash and the
control characters are escaped, by one letter where there is one. An exponent is written with its sign, a plus as well as a minus.
-/

namespace ContactSheet

namespace Json

/-- A hexadecimal digit in small letters. -/
def hexDigit (n : Nat) : Char := (n % 16).digitChar

/-- The escape that names a code unit. -/
def escapeUnit (unit : Nat) : List Char :=
  ['\\', 'u', hexDigit (unit / 4096), hexDigit (unit / 256), hexDigit (unit / 16), hexDigit unit]

/-- A character as written in a text. -/
def writeChar (c : Char) : List Char :=
  if c = '"' then ['\\', '"']
  else if c = '\\' then ['\\', '\\']
  else if c = '\x08' then ['\\', 'b']
  else if c = '\t' then ['\\', 't']
  else if c = '\n' then ['\\', 'n']
  else if c = '\x0c' then ['\\', 'f']
  else if c = '\r' then ['\\', 'r']
  else if c.toNat < 0x20 then escapeUnit c.toNat
  else [c]

/-- A piece of a text as written. -/
def Piece.write : Piece → List Char
  | .char c => writeChar c
  | .half unit => escapeUnit unit

/-- A text as written, in its quotes. -/
def Text.write (t : Text) : List Char := '"' :: (t.flatMap Piece.write ++ ['"'])

/-- A number as written; an exponent always has a sign. -/
def Number.write (n : Number) : List Char :=
  (if n.negative then ['-'] else []) ++ n.whole ++
    (match n.fraction with
      | none => []
      | some ds => '.' :: ds) ++
    (match n.exponent with
      | none => []
      | some (down, ds) => 'e' :: (if down then '-' else '+') :: ds)

mutual

/-- A value as written. -/
def write : Json → List Char
  | .null => ['n', 'u', 'l', 'l']
  | .bool true => ['t', 'r', 'u', 'e']
  | .bool false => ['f', 'a', 'l', 's', 'e']
  | .number n => n.write
  | .text t => Text.write t
  | .array items => '[' :: writeItems items
  | .object members => '{' :: writeMembers members

/-- The items of an array as written, with the bracket that closes it. -/
def writeItems : List Json → List Char
  | [] => [']']
  | [item] => item.write ++ [']']
  | item :: rest => item.write ++ ',' :: writeItems rest

/-- The members of an object as written, with the brace that closes it. -/
def writeMembers : List (Text × Json) → List Char
  | [] => ['}']
  | [(key, value)] => Text.write key ++ ':' :: (value.write ++ ['}'])
  | (key, value) :: rest => Text.write key ++ ':' :: (value.write ++ ',' :: writeMembers rest)

end

/-- The text of a value. -/
def toText (v : Json) : String := String.ofList v.write

end Json

end ContactSheet
