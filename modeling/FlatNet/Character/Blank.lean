import FlatNet.Character.Ranges

/-!
White space.

* `isWhite`: whether a character is white space.
-/

namespace FlatNet

/-- White space: the space, the tab, line breaks, and the spaces and separators of other
scripts. -/
def blankRanges : Ranges := [
  (0x9, 0xD), (0x20, 0x20), (0x85, 0x85), (0xA0, 0xA0), (0x1680, 0x1680), (0x2000, 0x200A),
  (0x2028, 0x2029), (0x202F, 0x202F), (0x205F, 0x205F), (0x3000, 0x3000)]

/-- Whether a character is white space. -/
def isWhite (c : Char) : Bool := blankRanges.holds c

end FlatNet
