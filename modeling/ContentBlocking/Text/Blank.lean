import ContentBlocking.Text.Ranges

/-!
# White space

The characters with the Unicode property White_Space, which is what trimming
removes at the ends of lines, host names and file entries.
-/

namespace ContentBlocking.Text

/-- The code points with the property White_Space. -/
def blankRanges : Ranges :=
  [(0x9, 0xD), (0x20, 0x20), (0x85, 0x85), (0xA0, 0xA0), (0x1680, 0x1680), (0x2000, 0x200A),
   (0x2028, 0x2029), (0x202F, 0x202F), (0x205F, 0x205F), (0x3000, 0x3000)]

/-- White space: the characters with the Unicode property of that name. -/
def isBlank (c : Char) : Bool := blankRanges.contains c.toNat

end ContentBlocking.Text
