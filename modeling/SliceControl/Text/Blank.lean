/-!
# White space

The characters with the Unicode property `White_Space`, and text without them at its ends.
-/

namespace SliceControl.Text

/-- The code points with the property `White_Space`. -/
def isBlank (character : Char) : Bool :=
  let code := character.toNat
  (9 ≤ code && code ≤ 13) || code == 0x20 || code == 0x85 || code == 0xA0 || code == 0x1680 ||
    (0x2000 ≤ code && code ≤ 0x200A) || code == 0x2028 || code == 0x2029 || code == 0x202F ||
    code == 0x205F || code == 0x3000

/-- Drops white space at the front. -/
def trimFront (characters : List Char) : List Char := characters.dropWhile isBlank

/-- Drops white space at the back. -/
def trimBack (characters : List Char) : List Char :=
  (characters.reverse.dropWhile isBlank).reverse

/-- Drops white space at both ends. -/
def trim (characters : List Char) : List Char := trimBack (trimFront characters)

/-- Whether a text holds nothing but white space. -/
def isBlankText (text : String) : Bool := text.toList.all isBlank

end SliceControl.Text
