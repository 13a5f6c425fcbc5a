import Rollout.Text.Ranges

/-!
# Blank characters

The characters with the Unicode property of white space. Numerals may stand between blanks, so
`trim` takes them off at both ends of a text. The information separators (U+001C to U+001F) and
the zero-width space are not blank.
-/

namespace Rollout.Text

/-- The code points of white space. -/
def blankRanges : Ranges :=
  [(0x09, 0x0D), (0x20, 0x20), (0x85, 0x85), (0xA0, 0xA0), (0x1680, 0x1680), (0x2000, 0x200A),
   (0x2028, 0x2029), (0x202F, 0x202F), (0x205F, 0x205F), (0x3000, 0x3000)]

/-- Whether a character is white space. -/
def isBlank (c : Char) : Bool := blankRanges.contains c.toNat

/-- A text without the blanks at its two ends. -/
def trim (text : List Char) : List Char :=
  ((text.dropWhile isBlank).reverse.dropWhile isBlank).reverse

@[simp] theorem trim_nil : trim [] = [] := rfl

end Rollout.Text
