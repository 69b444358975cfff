import TreeManifest.Text.Ranges

/-!
# White space

The characters with the property `White_Space`.
-/

namespace TreeManifest

def whiteSpaceRanges : List (Nat × Nat) := [
  (0x9, 0xd), (0x20, 0x20), (0x85, 0x85), (0xa0, 0xa0), (0x1680, 0x1680), (0x2000, 0x200a),
  (0x2028, 0x2029), (0x202f, 0x202f), (0x205f, 0x205f), (0x3000, 0x3000)]

def isWhiteSpace (char : Char) : Bool := inRanges whiteSpaceRanges char

end TreeManifest
