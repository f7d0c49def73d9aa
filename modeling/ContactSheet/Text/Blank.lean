/-!
# Blank characters: trimming a text and folding its case

`isBlank` holds the characters with the Unicode property White_Space. `trim` drops them at both ends; `foldCase` maps the capital
letters of ASCII to small ones and leaves every other character as it is.
-/

namespace ContactSheet

/-- The characters with the Unicode property White_Space. -/
def blanks : List Char :=
  ['\t', '\n', '\x0b', '\x0c', '\r', ' ', '\u0085', '\u00a0', '\u1680', '\u2000', '\u2001', '\u2002', '\u2003', '\u2004',
    '\u2005', '\u2006', '\u2007', '\u2008', '\u2009', '\u200a', '\u2028', '\u2029', '\u202f', '\u205f', '\u3000']

/-- A character that trimming drops. -/
def isBlank (c : Char) : Bool := blanks.contains c

/-- The text without the blank characters at its two ends. -/
def trim (s : String) : String :=
  String.ofList (((s.toList.dropWhile isBlank).reverse.dropWhile isBlank).reverse)

/-- The text with the capital letters of ASCII made small. -/
def foldCase (s : String) : String := String.ofList (s.toList.map Char.toLower)

end ContactSheet
