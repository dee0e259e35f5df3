import Reroute.Yaml.Scalar
import Reroute.Yaml.Tag

/-!
# YAML tokens

A YAML stream as tokens. The indentation of lines shows in tokens of its own: a block starts where
the column of a key or an entry is deeper than that of the block around it, and ends where a line
is less deep. A key needs no indicator, so that only the colon after it shows that it is one: the
token that marks it is put in place when the colon is found. This limits a key to one line of 1024
characters.

Whoever reads the tokens may have one only when the two after it are known and it can no longer turn
out to be a key. What is wrong further on is not noticed.

## Main definitions

* `Yaml.Token` — tokens with their lines
* `Yaml.Scanner` — the state of reading: what follows, the open blocks, and what may be a key
* `Yaml.Scanner.fetch` — one more token
* `Yaml.Token.ofStream` — the tokens of a stream, as far as they may be had
-/

namespace Reroute.Yaml

/-- The kinds of tokens. -/
inductive TokenKind where
  | streamStart
  | streamEnd
  | directive (directive : Directive)
  | documentStart
  | documentEnd
  | blockSequence
  | blockMapping
  | blockEnd
  | flowSequence
  | flowSequenceEnd
  | flowMapping
  | flowMappingEnd
  | blockEntry
  | flowEntry
  | key
  | value
  | reference (name : Text)
  | anchor (name : Text)
  | tag (tag : Tag)
  | scalar (text : Text) (isPlain : Bool)
deriving DecidableEq, Repr

/-- A token with the line on which it starts. -/
structure Token where
  kind : TokenKind
  line : Nat
deriving DecidableEq, Repr

/-- A token that may turn out to start a key. -/
structure KeyMark where
  /-- Whether it has to be a key, since it stands where the keys of a block stand. -/
  isRequired : Bool
  /-- The number of tokens before it. -/
  number : Nat
  line : Nat
  column : Nat
  index : Nat
deriving DecidableEq, Repr

namespace KeyMark

/-- The farthest that a colon may be from the start of its key. -/
def limit : Nat := 1024

/-- Whether what may be a key is one if a colon stands at the given character. -/
def reaches (m : KeyMark) (g : Glyph) : Bool := m.line = g.line && g.index ≤ m.index + limit

/-- Whether it is still open if this is a key. -/
def isOpen (m : KeyMark) (gs : Glyphs) : Bool :=
  match gs with
  | [] => m.isRequired
  | g :: _ => m.isRequired || m.reaches g

end KeyMark

/-- The state of reading tokens. -/
structure Scanner where
  rest : Glyphs
  /-- The columns of the open blocks, the innermost first. -/
  blocks : List Nat
  /-- Whether a key may start here. -/
  keyAllowed : Bool
  /-- What may be a key on the innermost level. -/
  mark? : Option KeyMark
  /-- What may be a key on each level around the open flow collections, the innermost first. -/
  outer : List (Option KeyMark)
  tokens : Array Token
  /-- The last line of the stream. -/
  lastLine : Nat

namespace Scanner

/-- Whether a flow collection is open. -/
def inFlow (s : Scanner) : Bool := !s.outer.isEmpty

/-- The column of the innermost block. -/
def indent (s : Scanner) : Int :=
  match s.blocks with
  | [] => -1
  | column :: _ => column

/-- One more token. -/
def emit (s : Scanner) (kind : TokenKind) (line : Nat) : Scanner :=
  { s with tokens := s.tokens.push ⟨kind, line⟩ }

/-- A token after the first `number` ones. -/
def emitAt (s : Scanner) (number : Nat) (kind : TokenKind) (line : Nat) : Scanner :=
  { s with tokens := s.tokens.insertIdxIfInBounds number ⟨kind, line⟩ }

/-- Ends the blocks that are deeper than a column. -/
def closeBlocks (s : Scanner) (column : Int) (line : Nat) : Scanner :=
  if s.inFlow then s
  else
    let closed := s.blocks.takeWhile fun (c : Nat) => column < c
    let s := { s with blocks := s.blocks.drop closed.length }
    closed.foldl (fun s _ => s.emit .blockEnd line) s

/-- Starts a block after the first `number` tokens, unless one of this depth is open. -/
def openBlock (s : Scanner) (column number : Nat) (kind : TokenKind) (line : Nat) : Scanner :=
  if s.inFlow || (column : Int) ≤ s.indent then s
  else { s with blocks := column :: s.blocks }.emitAt number kind line

/-- Gives up what may be a key. It fails if it has to be one. -/
def dropMark (s : Scanner) : Option Scanner :=
  match s.mark? with
  | some m => if m.isRequired then none else some { s with mark? := none }
  | none => some s

/-- Notes that the next token may be a key, if one is allowed here. -/
def setMark (s : Scanner) (g : Glyph) : Option Scanner :=
  if s.keyAllowed then
    let required := !s.inFlow && s.indent = g.column
    s.dropMark.map fun s =>
      { s with mark? := some ⟨required, s.tokens.size, g.line, g.column, g.index⟩ }
  else some s

/-! ### White space -/

/-- The characters after comments. Comments on lines of their own that follow belong to the first
one, however they are indented. `resume` is the end of the line of the last comment. -/
def afterComments : (resume : Option Glyphs) → Glyphs → Glyphs
  | resume, [] => resume.getD []
  | none, g :: rest =>
    if g.isBreak then afterComments (some (g :: rest)) rest else afterComments none rest
  | some resume, g :: rest =>
    if g.isSpace then afterComments (some resume) rest
    else if g.char = '#' then afterComments none rest
    else resume

/-- The characters after white space and comments, and whether a key may start there. At most
`count` pieces of white space are passed. A tab is no indentation. -/
def toToken (inFlow : Bool) : (count : Nat) → (keyAllowed : Bool) → Glyphs → Bool × Glyphs
  | 0, keyAllowed, gs => (keyAllowed, gs)
  | _, keyAllowed, [] => (keyAllowed, [])
  | count + 1, keyAllowed, g :: rest =>
    if (g.column = 0 && isMark g.char) || g.char = ' ' ||
        ((inFlow || !keyAllowed) && g.char = '\t') then
      toToken inFlow count keyAllowed rest
    else if g.isBreak then toToken inFlow count (keyAllowed || !inFlow) rest
    else if g.char = '#' then
      match afterComments none rest with
      | [] => (keyAllowed, [])
      | _ :: after => toToken inFlow count (keyAllowed || !inFlow) after
    else (keyAllowed, g :: rest)

/-- Passes a comment at the end of a line. -/
def passComment (s : Scanner) : Scanner :=
  let gs := afterBlanks s.rest
  if Glyphs.nextIs gs '#' then { s with rest := gs.dropWhile fun g => !g.isBreak } else s

/-! ### Tokens -/

/-- The end of the stream. -/
def fetchEnd (s : Scanner) : Option Scanner :=
  (s.closeBlocks (-1) s.lastLine).dropMark.map fun s => s.emit .streamEnd s.lastLine

/-- A token that stands outside all blocks. -/
def atTopLevel (s : Scanner) (g : Glyph) : Option Scanner :=
  (s.closeBlocks (-1) g.line).dropMark.map fun s => { s with keyAllowed := false }

/-- A directive after its percent sign. -/
def fetchDirective (s : Scanner) (g : Glyph) (rest : Glyphs) : Option Scanner := do
  let s ← s.atTopLevel g
  let (directive, rest) ← Directive.read rest
  return { s with rest }.emit (.directive directive) g.line

/-- The start or the end of a document. -/
def fetchIndicator (s : Scanner) (g : Glyph) (kind : TokenKind) : Option Scanner := do
  let s ← s.atTopLevel g
  return { s with rest := s.rest.drop 3 }.emit kind g.line

/-- The start of a flow collection. -/
def openFlow (s : Scanner) (g : Glyph) (kind : TokenKind) : Option Scanner := do
  let s ← s.setMark g
  return { s with outer := s.mark? :: s.outer, mark? := none, keyAllowed := true }.emit kind g.line

/-- The end of a flow collection. -/
def closeFlow (s : Scanner) (g : Glyph) (kind : TokenKind) : Option Scanner := do
  let s ← s.dropMark
  let s := match s.outer with
    | [] => s
    | mark? :: outer => { s with mark?, outer }
  return { s with keyAllowed := false }.emit kind g.line

/-- The comma between the entries of a flow collection. -/
def fetchFlowEntry (s : Scanner) (g : Glyph) : Option Scanner := do
  let s ← s.dropMark
  return { s with keyAllowed := true }.emit .flowEntry g.line

/-- The dash before an entry of a block. -/
def fetchBlockEntry (s : Scanner) (g : Glyph) : Option Scanner := do
  guard (s.inFlow || s.keyAllowed)
  let s ← (s.openBlock g.column s.tokens.size .blockSequence g.line).dropMark
  return { s with keyAllowed := true }.emit .blockEntry g.line

/-- The question mark before a key. -/
def fetchKey (s : Scanner) (g : Glyph) : Option Scanner := do
  guard (s.inFlow || s.keyAllowed)
  let s ← (s.openBlock g.column s.tokens.size .blockMapping g.line).dropMark
  return { s with keyAllowed := !s.inFlow }.emit .key g.line

/-- The colon after a key that has its indicator already, or none at all. -/
def fetchBareValue (s : Scanner) (g : Glyph) : Option Scanner := do
  guard (s.inFlow || s.keyAllowed)
  let s := s.openBlock g.column s.tokens.size .blockMapping g.line
  return { s with keyAllowed := !s.inFlow }.emit .value g.line

/-- The colon after a key. -/
def fetchValue (s : Scanner) (g : Glyph) : Option Scanner :=
  match s.mark? with
  | none => s.fetchBareValue g
  | some m =>
    if m.reaches g then
      let s := (s.emitAt m.number .key m.line).openBlock m.column m.number .blockMapping m.line
      some ({ s with mark? := none, keyAllowed := false }.emit .value g.line)
    else if m.isRequired then none
    else { s with mark? := none }.fetchBareValue g

/-- A token that may be a key or stand before one. -/
def fetchAtom (s : Scanner) (g : Glyph) (kind : TokenKind) (rest : Glyphs) : Option Scanner := do
  let s ← s.setMark g
  return { s with keyAllowed := false, rest }.emit kind g.line

/-- A block scalar after its indicator. -/
def fetchBlock (s : Scanner) (g : Glyph) (literal : Bool) (rest : Glyphs) : Option Scanner := do
  let s ← s.dropMark
  let (text, rest) ← Block.read literal s.indent rest
  return { s with keyAllowed := true, rest }.emit (.scalar (Text.ofChars text) false) g.line

/-- A plain scalar. A key may start after it if it ends its line. -/
def fetchPlain (s : Scanner) (g : Glyph) : Option Scanner := do
  let s ← s.setMark g
  let plain ← Plain.read s.inFlow (s.indent + 1) s.rest
  let s := { s with keyAllowed := plain.endsLine, rest := plain.rest }
  let s := s.emit (.scalar (Text.ofChars plain.text) true) g.line
  return if plain.endsLine then s else s.passComment

/-- Whether a plain scalar starts with a character. -/
def startsPlain (inFlow : Bool) (g : Glyph) (rest : Glyphs) : Bool :=
  let isIndicator := g.char ∈ ['-', '?', ':', ',', '[', ']', '\x7b', '\x7d', '#', '&', '*', '!',
    '|', '>', '\'', '"', '%', '@', '\x60']
  (!g.isSpace && !isIndicator) || (g.char = '-' && !Glyphs.atBlank rest) ||
    (!inFlow && (g.char = '?' || g.char = ':') && !Glyphs.atGap rest)

/-- A token inside a document. -/
def fetchContent (s : Scanner) (g : Glyph) (rest : Glyphs) : Option Scanner :=
  let after : Scanner := { s with rest }
  let atGap := Glyphs.atGap rest
  if g.char = '[' then (after.openFlow g .flowSequence).map passComment
  else if g.char = '\x7b' then (after.openFlow g .flowMapping).map passComment
  else if g.char = ']' then (after.closeFlow g .flowSequenceEnd).map passComment
  else if g.char = '\x7d' then (after.closeFlow g .flowMappingEnd).map passComment
  else if g.char = ',' then (after.fetchFlowEntry g).map passComment
  else if g.char = '-' && atGap then after.fetchBlockEntry g
  else if g.char = '?' && (s.inFlow || atGap) then (after.fetchKey g).map passComment
  else if g.char = ':' && (s.inFlow || atGap) then (after.fetchValue g).map passComment
  else if g.char = '*' then
    (readName rest).bind fun (name, rest) => (s.fetchAtom g (.reference name) rest).map passComment
  else if g.char = '&' then
    (readName rest).bind fun (name, rest) => (s.fetchAtom g (.anchor name) rest).map passComment
  else if g.char = '!' then
    (Tag.read (g :: rest)).bind fun (tag, rest) => (s.fetchAtom g (.tag tag) rest).map passComment
  else if (g.char = '|' || g.char = '>') && !s.inFlow then s.fetchBlock g (g.char = '|') rest
  else if g.char = '\'' || g.char = '"' then
    (Quoted.read (g.char = '\'') rest).bind fun (text, rest) =>
      (s.fetchAtom g (.scalar (Text.ofChars text) false) rest).map passComment
  else if startsPlain s.inFlow g rest then s.fetchPlain g
  else none

/-- One more token, with those that come with it. -/
def fetch (s : Scanner) : Option Scanner :=
  let (keyAllowed, rest) := toToken s.inFlow s.rest.length s.keyAllowed s.rest
  let s := { s with keyAllowed, rest }
  match rest with
  | [] => s.fetchEnd
  | g :: after =>
    let s := s.closeBlocks g.column g.line
    if g.column = 0 && g.char = '%' then s.fetchDirective g after
    else if Glyphs.atIndicator '-' rest then s.fetchIndicator g .documentStart
    else if Glyphs.atIndicator '.' rest then s.fetchIndicator g .documentEnd
    else s.fetchContent g after

/-! ### All tokens -/

/-- The state before the first character. -/
def start (stream : Stream) : Scanner where
  rest := stream.glyphs
  blocks := []
  keyAllowed := true
  mark? := none
  outer := []
  tokens := #[⟨.streamStart, 0⟩]
  lastLine := (stream.glyphs.getLast?.map Glyph.line).getD 0

/-- Whether the last token ends the stream. -/
def isDone (s : Scanner) : Bool := (s.tokens.back?.map Token.kind) = some .streamEnd

/-- At least how many characters have to be known at the start of a token. -/
def lookahead : Nat := 4

/-- The state after at most `count` tokens, up to the end of the stream or to what is no token. -/
def run (isBroken : Bool) : (count : Nat) → Scanner → Scanner
  | 0, s => s
  | count + 1, s =>
    if s.isDone || (isBroken && s.rest.length < lookahead) then s
    else
      match s.fetch with
      | none => s
      | some next => run isBroken count next

/-- Whether the token after the first `number` ones may be had. -/
def isKnown (s : Scanner) (number : Nat) : Bool :=
  s.isDone || (number + 2 < s.tokens.size &&
    (s.mark? :: s.outer).reduceOption.all fun m => m.number ≠ number || !m.isOpen s.rest)

end Scanner

/-- The tokens of a stream, as far as they may be had. A token takes at least one character, and
then the stream ends. -/
def Token.ofStream (stream : Stream) : List Token :=
  let s := Scanner.run stream.isBroken (stream.glyphs.length + 1) (Scanner.start stream)
  let known := (List.range s.tokens.size).takeWhile s.isKnown
  s.tokens.toList.take known.length

end Reroute.Yaml
