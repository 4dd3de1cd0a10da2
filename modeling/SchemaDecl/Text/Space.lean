/-
White space.

* `isSpace`: the characters with the property White Space.
* `trimEnd`: a text without the white space at its end.
-/
import SchemaDecl.Text.Range

namespace SchemaDecl.Text

/-- The ranges of code points with the property White Space, ascending. -/
def spaceRanges : List (Nat × Nat) :=
  [(0x9, 0xD), (0x20, 0x20), (0x85, 0x85), (0xA0, 0xA0), (0x1680, 0x1680), (0x2000, 0x200A),
   (0x2028, 0x2029), (0x202F, 0x202F), (0x205F, 0x205F), (0x3000, 0x3000)]

/-- A white space character, of ASCII or not. -/
def isSpace (c : Char) : Bool := inRanges spaceRanges c

/-- The text up to its last character that is no white space. -/
def trimEnd (s : List Char) : List Char := (s.reverse.dropWhile isSpace).reverse

end SchemaDecl.Text
