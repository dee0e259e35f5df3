import Reroute.Text.Rune

/-!
# Blank characters and trimming

The characters with the Unicode property White_Space, and texts without them at either end. The
zero width space, the byte order mark and U+180E are not blank.

## Main definitions

* `isBlank` — the White_Space property
* `Text.trim` — a text without blank characters at its ends
* `Text.isBlankText` — texts of blank characters only
-/

namespace Reroute

/-- Whether a character has the Unicode property White_Space. -/
def isBlank (c : Char) : Bool :=
  let n := c.toNat
  (9 ≤ n && n ≤ 13) || n == 0x20 || n == 0x85 || n == 0xA0 || n == 0x1680 ||
    (0x2000 ≤ n && n ≤ 0x200A) || n == 0x2028 || n == 0x2029 || n == 0x202F || n == 0x205F ||
    n == 0x3000

namespace Rune

/-- Whether a rune is a blank character. A stray byte is not. -/
def isBlank : Rune → Bool
  | scalar c => Reroute.isBlank c
  | stray _ => false

end Rune

namespace Text

/-- The text without the blank characters at its ends. -/
def trim (t : Text) : Text :=
  let rest := (runes t).dropWhile Rune.isBlank
  ofRunes (rest.reverse.dropWhile Rune.isBlank).reverse

/-- Whether a text has nothing but blank characters. -/
def isBlankText (t : Text) : Bool := (runes t).all Rune.isBlank

end Text

end Reroute
