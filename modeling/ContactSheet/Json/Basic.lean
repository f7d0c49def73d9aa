/-!
# JSON values as they are written

A value keeps what its text says and nothing is lost: a number keeps its digits, an object its members in order with repeated
names, a text the surrogate halves that its escapes name one by one. What a number or a text is worth is asked for by whoever
needs it (`Json.Text.string?` here, the numbers in `ContactSheet.Json.Numeral`), so a part that nobody asks for may hold what no
number or string can.
-/

namespace ContactSheet

namespace Json

/-- A number as written: a sign, the digits before the point, those after it, and an exponent with its sign. -/
structure Number where
  negative : Bool
  whole : List Char
  fraction : Option (List Char)
  exponent : Option (Bool × List Char)
  deriving DecidableEq, Repr

/-- A part of a text: a character, or a surrogate half that an escape names. -/
inductive Piece where
  | char (c : Char)
  | half (unit : Nat)
  deriving DecidableEq, Repr

/-- A text as written, between its quotes. -/
abbrev Text := List Piece

/-- The first half of a surrogate pair. -/
def isHighHalf (unit : Nat) : Bool := 0xd800 ≤ unit && unit < 0xdc00

/-- The second half of a surrogate pair. -/
def isLowHalf (unit : Nat) : Bool := 0xdc00 ≤ unit && unit < 0xe000

/-- The characters of a text, none when a surrogate half stands alone. -/
def Text.chars? : Text → Option (List Char)
  | [] => some []
  | .char c :: rest => (Text.chars? rest).map (c :: ·)
  | .half high :: .half low :: rest =>
    if isHighHalf high && isLowHalf low then
      (Text.chars? rest).map (Char.ofNat (0x10000 + (high - 0xd800) * 0x400 + (low - 0xdc00)) :: ·)
    else none
  | .half _ :: _ => none

/-- The string that a text stands for, none when a surrogate half stands alone. -/
def Text.string? (t : Text) : Option String := (Text.chars? t).map String.ofList

/-- A string as a text. -/
def Text.ofString (s : String) : Text := s.toList.map .char

end Json

/-- A JSON value. -/
inductive Json where
  | null
  | bool (b : Bool)
  | number (n : Json.Number)
  | text (t : Json.Text)
  | array (items : List Json)
  | object (members : List (Json.Text × Json))
  deriving Repr

namespace Json

mutual

/-- How many containers are open at the deepest point of a value. -/
def depth : Json → Nat
  | .array items => itemsDepth items + 1
  | .object members => membersDepth members + 1
  | _ => 0

/-- The depth of the deepest item. -/
def itemsDepth : List Json → Nat
  | [] => 0
  | item :: rest => max item.depth (itemsDepth rest)

/-- The depth of the deepest member. -/
def membersDepth : List (Text × Json) → Nat
  | [] => 0
  | (_, value) :: rest => max value.depth (membersDepth rest)

end

/-- A string reads back from its text. -/
theorem Text.string?_ofString (s : String) : Text.string? (Text.ofString s) = some s := by
  have h : ∀ cs : List Char, Text.chars? (cs.map .char) = some cs := by
    intro cs
    induction cs with
    | nil => rfl
    | cons c cs ih => simp [Text.chars?, ih]
  simp [Text.string?, Text.ofString, h]

end Json

end ContactSheet
