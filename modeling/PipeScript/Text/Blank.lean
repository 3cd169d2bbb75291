-- Blank characters: the White_Space property of Unicode. A text is blank when it has no other
-- character, and trimming takes blanks off both ends.

namespace PipeScript

namespace Text

/-- Whether a character has the White_Space property. -/
def isBlankChar (c : Char) : Bool :=
  let n := c.toNat
  (0x09 ≤ n && n ≤ 0x0D) || n = 0x20 || n = 0x85 || n = 0xA0 || n = 0x1680
    || (0x2000 ≤ n && n ≤ 0x200A) || n = 0x2028 || n = 0x2029 || n = 0x202F || n = 0x205F
    || n = 0x3000

/-- Whether a text has nothing but blanks. -/
def isBlank (s : String) : Bool := s.toList.all isBlankChar

/-- The characters without the blanks at both ends. -/
def trimChars (cs : List Char) : List Char :=
  ((cs.dropWhile isBlankChar).reverse.dropWhile isBlankChar).reverse

/-- The text without the blanks at both ends. -/
def trim (s : String) : String := String.ofList (trimChars s.toList)

end Text

end PipeScript
