import Reroute.Text.Rune

/-!
# Characters of a YAML stream

A YAML stream is a sequence of characters, each with its place. A line break counts as one character
however it is spelled. Characters that YAML does not allow, and bytes that are no characters, make
the part of the stream in which they stand unreadable: a stream is read in parts of 512 bytes.

## Main definitions

* `Yaml.Glyph` — a character with its line, column and index
* `Yaml.Stream` — the characters that can be read, and whether more would follow
* `Yaml.Stream.ofText` — the stream of a text
-/

namespace Reroute.Yaml

/-- A character with its place. Lines, columns and indices count from zero. -/
structure Glyph where
  char : Char
  line : Nat
  column : Nat
  index : Nat
deriving DecidableEq, Repr

/-- Whether a character is a space or a tab. -/
def isBlank (c : Char) : Bool := c = ' ' || c = '\t'

/-- The line and paragraph separators, which break lines and are kept as they are. -/
def isSeparator (c : Char) : Bool := c.toNat = 0x2028 || c.toNat = 0x2029

/-- Whether a character ends a line. -/
def isBreak (c : Char) : Bool := c = '\n' || isSeparator c

/-- Whether a character may stand in a name. -/
def isWord (c : Char) : Bool := c.isAlphanum || c = '_' || c = '-'

/-- Whether the byte order mark. -/
def isMark (c : Char) : Bool := c.toNat = 0xFEFF

namespace Glyph

/-- Whether a space or a tab. -/
def isBlank (g : Glyph) : Bool := Yaml.isBlank g.char

/-- Whether the end of a line. -/
def isBreak (g : Glyph) : Bool := Yaml.isBreak g.char

/-- Whether a blank or the end of a line. -/
def isSpace (g : Glyph) : Bool := g.isBlank || g.isBreak

end Glyph

/-- Characters from some point of a stream on. -/
abbrev Glyphs := List Glyph

namespace Glyphs

/-- Whether the next character is a given one. -/
def nextIs (gs : Glyphs) (c : Char) : Bool :=
  match gs with
  | [] => false
  | g :: _ => g.char = c

/-- Whether a word ends here: at a blank, the end of a line or the end of the stream. -/
def atGap : Glyphs → Bool
  | [] => true
  | g :: _ => g.isSpace

/-- Whether a blank follows. -/
def atBlank : Glyphs → Bool
  | [] => false
  | g :: _ => g.isBlank

/-- Whether a line ends here. -/
def atLineEnd : Glyphs → Bool
  | [] => true
  | g :: _ => g.isBreak

/-- Whether a document indicator stands here: three times a character at the start of a line. -/
def atIndicator (c : Char) : Glyphs → Bool
  | a :: b :: d :: rest =>
    a.column = 0 && a.char = c && b.char = c && d.char = c && atGap rest
  | _ => false

/-- Whether a document starts or ends here. -/
def atDocument (gs : Glyphs) : Bool := gs.atIndicator '-' || gs.atIndicator '.'

end Glyphs

/-! ### Reading a stream -/

/-- Whether YAML allows a character. -/
def isAllowed (c : Char) : Bool :=
  let n := c.toNat
  n = 0x09 || n = 0x0A || n = 0x0D || (0x20 ≤ n && n ≤ 0x7E) || n = 0x85 ||
    (0xA0 ≤ n && n ≤ 0xD7FF) || (0xE000 ≤ n && n ≤ 0xFFFD) || 0x10000 ≤ n

/-- A sequence of characters, and whether something that cannot be read follows. -/
structure Stream where
  glyphs : Glyphs
  isBroken : Bool

/-- How many bytes are read at a time. -/
def partSize : Nat := 512

/-- The runes in parts, where no part has more bytes than are read at a time. The first part has
`room` bytes left. -/
def parts : (room : Nat) → List Rune → List Rune → List (List Rune)
  | _, part, [] => [part.reverse]
  | room, part, r :: rest =>
    if r.width ≤ room then parts (room - r.width) (r :: part) rest
    else part.reverse :: parts (partSize - r.width) [r] rest

/-- Whether a part can be read. -/
def isReadable (part : List Rune) : Bool :=
  part.all fun
    | .scalar c => isAllowed c
    | .stray _ => false

/-- The characters with their places. A carriage return with or without a line feed, and a next line
character, become line feeds. -/
def place : (line column index : Nat) → List Char → Glyphs
  | _, _, _, [] => []
  | line, column, index, '\r' :: '\n' :: rest =>
    ⟨'\n', line, column, index⟩ :: place (line + 1) 0 (index + 2) rest
  | line, column, index, c :: rest =>
    if c = '\n' || c = '\r' || c.toNat = 0x85 then
      ⟨'\n', line, column, index⟩ :: place (line + 1) 0 (index + 1) rest
    else if isSeparator c then ⟨c, line, column, index⟩ :: place (line + 1) 0 (index + 1) rest
    else ⟨c, line, column, index⟩ :: place line (column + 1) (index + 1) rest

/-- The stream of runes. -/
def Stream.ofRunes (room : Nat) (rs : List Rune) : Stream :=
  let all := parts room [] rs
  let readable := all.takeWhile isReadable
  ⟨place 0 0 0 (readable.flatten.map Rune.char), readable.length < all.length⟩

/-- The runes of 16 bit units, where `unit` joins two bytes. -/
def wideRunes (unit : UInt8 → UInt8 → Nat) : Text → List Rune
  | [] => []
  | [b] => [.stray b]
  | a :: b :: rest =>
    let high := unit a b
    if 0xDC00 ≤ high && high ≤ 0xDFFF then .stray a :: wideRunes unit rest
    else if 0xD800 ≤ high && high ≤ 0xDBFF then
      match rest with
      | c :: d :: rest =>
        let low := unit c d
        if 0xDC00 ≤ low && low ≤ 0xDFFF then
          .scalar (Char.ofNat (0x10000 + (high - 0xD800) * 1024 + (low - 0xDC00))) ::
            wideRunes unit rest
        else .stray a :: wideRunes unit rest
      | _ => [.stray a]
    else .scalar (Char.ofNat high) :: wideRunes unit rest

/-- The stream of a text, whose encoding a byte order mark may state. -/
def Stream.ofText (t : Text) : Stream :=
  match t with
  | 0xFF :: 0xFE :: rest =>
    .ofRunes (partSize - 2) (wideRunes (fun a b => b.toNat * 256 + a.toNat) rest)
  | 0xFE :: 0xFF :: rest =>
    .ofRunes (partSize - 2) (wideRunes (fun a b => a.toNat * 256 + b.toNat) rest)
  | 0xEF :: 0xBB :: 0xBF :: rest => .ofRunes (partSize - 3) (Text.runes rest)
  | _ => .ofRunes partSize (Text.runes t)

end Reroute.Yaml
