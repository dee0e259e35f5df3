import Reroute.Yaml.Glyph

/-!
# YAML tags, names and directives

The notations that start with `!`, `&`, `*` and `%`. A tag is a handle with a suffix; what the
handle stands for is up to the document. The readers take the characters after the first one and
return what they have read with the characters after it.

## Main definitions

* `Yaml.readName` — the name of an anchor or an alias
* `Yaml.Tag`, `Yaml.Tag.read` — tags
* `Yaml.Directive`, `Yaml.Directive.read` — directives
-/

namespace Reroute.Yaml

/-- The text of characters. -/
def textOf (gs : Glyphs) : Text := Text.ofChars (gs.map Glyph.char)

/-- The word here, which may be empty, and the characters after it. -/
def readWord (gs : Glyphs) : Text × Glyphs :=
  (textOf (gs.takeWhile fun g => isWord g.char), gs.dropWhile fun g => isWord g.char)

/-- The name of an anchor or an alias. -/
def readName (gs : Glyphs) : Option (Text × Glyphs) :=
  let (name, rest) := readWord gs
  let ends := match rest with
    | [] => true
    | g :: _ => g.isSpace || g.char ∈ ['?', ':', ',', ']', '\x7d', '%', '@', '\x60']
  if name ≠ [] && ends then some (name, rest) else none

/-! ### Tags -/

/-- A tag. Without a handle, the suffix is the whole tag. -/
structure Tag where
  handle : Text
  suffix : Text
deriving DecidableEq, Repr

/-- The value of two hexadecimal digits. -/
def octet? (high low : Char) : Option UInt8 :=
  let digit (c : Char) : Option Nat :=
    if '0' ≤ c && c ≤ '9' then some (c.toNat - 48)
    else if 'a' ≤ c && c ≤ 'f' then some (c.toNat - 87)
    else if 'A' ≤ c && c ≤ 'F' then some (c.toNat - 55)
    else none
  match digit high, digit low with
  | some h, some l => some (h * 16 + l).toUInt8
  | _, _ => none

/-- Whether a character may stand for itself in the address of a tag. -/
def isAddress (c : Char) : Bool :=
  isWord c || c ∈ [';', '/', '?', ':', '@', '&', '=', '+', '$', ',', '.', '!', '~', '*', '\'', '(',
    ')', '[', ']']

/-- The address of a tag, in which any byte may be written as a percent sign with two digits. -/
def addressBytes : Glyphs → Option (Text × Glyphs)
  | [] => some ([], [])
  | g :: rest =>
    if g.char = '%' then
      match rest with
      | high :: low :: rest =>
        match octet? high.char low.char, addressBytes rest with
        | some b, some (t, after) => some (b :: t, after)
        | _, _ => none
      | _ => none
    else if isAddress g.char then
      match addressBytes rest with
      | some (t, after) => some (Text.ofChars [g.char] ++ t, after)
      | none => none
    else some ([], g :: rest)

/-- The address of a tag, after the part of it that was read already. -/
def readAddress (head : Text) (gs : Glyphs) : Option (Text × Glyphs) :=
  match addressBytes gs with
  | none => none
  | some (t, rest) =>
    if (head = [] && t = []) || !t.isUtf8 then none else some (head.drop 1 ++ t, rest)

/-- A handle from its exclamation mark on: a word that another mark may end. -/
def readHandle (gs : Glyphs) : Option (Text × Glyphs) :=
  match gs with
  | [] => none
  | g :: rest =>
    if g.char ≠ '!' then none
    else
      let (word, rest) := readWord rest
      let lead : Text := "!" ++ word
      if Glyphs.nextIs rest '!' then some (lead ++ "!", rest.drop 1) else some (lead, rest)

/-- Whether the handle is more than one mark and ends in one. -/
def isHandle (t : Text) : Bool := 1 < t.length && t.getLast? = some (Text.byte '!')

/-- A tag between angle brackets, after the first of them. -/
def Tag.readVerbatim (gs : Glyphs) : Option (Tag × Glyphs) := do
  let (suffix, rest) ← readAddress [] gs
  guard (Glyphs.nextIs rest '>')
  return (⟨[], suffix⟩, rest.drop 1)

/-- A tag with a handle, which is one mark if it is not said, from its exclamation mark on. -/
def Tag.readShort (gs : Glyphs) : Option (Tag × Glyphs) := do
  let (handle, rest) ← readHandle gs
  if isHandle handle then
    let (suffix, rest) ← readAddress [] rest
    return (⟨handle, suffix⟩, rest)
  else
    let (suffix, rest) ← readAddress handle rest
    return if suffix = [] then (⟨[], handle⟩, rest) else (⟨"!", suffix⟩, rest)

/-- A tag from its exclamation mark on. -/
def Tag.read (gs : Glyphs) : Option (Tag × Glyphs) := do
  let (tag, rest) ←
    if Glyphs.nextIs (gs.drop 1) '<' then Tag.readVerbatim (gs.drop 2) else Tag.readShort gs
  if Glyphs.atGap rest then return (tag, rest) else none

/-! ### Directives -/

/-- A directive before a document. -/
inductive Directive where
  | version (major minor : Nat)
  /-- What a handle stands for. -/
  | handle (name lead : Text)
deriving DecidableEq, Repr

/-- A number of one or two digits. -/
def readNumber (gs : Glyphs) : Option (Nat × Glyphs) :=
  let digits := gs.takeWhile fun g => g.char.isDigit
  if digits.length = 1 || digits.length = 2 then
    some (digits.foldl (fun n g => n * 10 + (g.char.toNat - 48)) 0, gs.drop digits.length)
  else none

/-- The characters after blanks. -/
def afterBlanks (gs : Glyphs) : Glyphs := gs.dropWhile Glyph.isBlank

/-- The characters of the next line, if only a comment follows here. -/
def nextLine? (gs : Glyphs) : Option Glyphs :=
  let gs := afterBlanks gs
  let gs := if Glyphs.nextIs gs '#' then gs.dropWhile fun g => !g.isBreak else gs
  if Glyphs.atLineEnd gs then some (gs.drop 1) else none

/-- The version of YAML that a document is written in. -/
def readVersion (gs : Glyphs) : Option (Directive × Glyphs) := do
  let (major, gs) ← readNumber (afterBlanks gs)
  guard (Glyphs.nextIs gs '.')
  let (minor, gs) ← readNumber (gs.drop 1)
  return (.version major minor, gs)

/-- What a handle stands for. -/
def readHandleDirective (gs : Glyphs) : Option (Directive × Glyphs) := do
  let (name, gs) ← readHandle (afterBlanks gs)
  guard (isHandle name || name = Text.ofString "!")
  guard (Glyphs.atBlank gs)
  let (lead, gs) ← readAddress [] (afterBlanks gs)
  guard (Glyphs.atGap gs)
  return (.handle name lead, gs)

/-- A directive after its percent sign, and the characters of the next line. -/
def Directive.read (gs : Glyphs) : Option (Directive × Glyphs) := do
  let (name, gs) := readWord gs
  guard (name ≠ [] && Glyphs.atGap gs)
  let (directive, gs) ←
    if name = Text.ofString "YAML" then readVersion gs
    else if name = Text.ofString "TAG" then readHandleDirective gs
    else none
  return (directive, ← nextLine? gs)

end Reroute.Yaml
