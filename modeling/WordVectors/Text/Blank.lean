/-!
# Blanks

The characters that may surround a number. They are the characters with the property
`White_Space` of the Unicode character database, which extends the blanks of ASCII.

## Main definitions

* `Text.isBlank`: whether a character is white space
* `Text.trim`: a text without the blanks at its two ends
-/

namespace WordVectors.Text

/-- Whether a character has the property `White_Space`. -/
def isBlank (c : Char) : Bool :=
  let n := c.toNat
  (0x09 ≤ n && n ≤ 0x0D) || n == 0x20 || n == 0x85 || n == 0xA0 || n == 0x1680 ||
    (0x2000 ≤ n && n ≤ 0x200A) || n == 0x2028 || n == 0x2029 || n == 0x202F || n == 0x205F ||
    n == 0x3000

/-- A text without the blanks in front. -/
def trimLeft (cs : List Char) : List Char :=
  cs.dropWhile isBlank

/-- A text without the blanks at its two ends. -/
def trim (cs : List Char) : List Char :=
  (trimLeft (trimLeft cs).reverse).reverse

end WordVectors.Text
