import Reroute.Yaml.Glyph

/-!
# YAML scalars

The text of a scalar in each of its notations. A line break inside a scalar is folded: a single one
becomes a space, and of several the first is dropped.

* A plain scalar ends before `: ` and ` #`, in flow collections also before their indicators, and
  where the indentation ends.
* In single quotes, a quote is written twice. In double quotes, a backslash starts an escape.
* A block scalar is made of all lines with at least the indentation of its first one; folded or
  literal, with its last line breaks stripped, clipped to one or kept.

All readers here take the characters from the start of the scalar on and return its text with the
characters after it.

## Main definitions

* `Yaml.Plain.read` — plain scalars
* `Yaml.Quoted.read` — quoted scalars
* `Yaml.Block.read` — block scalars
-/

namespace Reroute.Yaml

/-- White space inside a scalar whose meaning depends on what follows. -/
inductive Gap where
  | none
  /-- Spaces and tabs, the last one first. -/
  | blanks (chars : List Char)
  /-- Line breaks, with whatever blanks: the first one unless it is escaped, and the others, the
  last one first. -/
  | breaks (first : Option Char) (more : List Char)
deriving DecidableEq, Repr

namespace Gap

/-- The gap with one more blank. Blanks around line breaks do not count. -/
def withBlank (gap : Gap) (c : Char) : Gap :=
  match gap with
  | none => blanks [c]
  | blanks cs => blanks (c :: cs)
  | breaks first more => breaks first more

/-- The gap with one more line break. -/
def withBreak (gap : Gap) (c : Char) : Gap :=
  match gap with
  | none | blanks _ => breaks (some c) []
  | breaks first more => breaks first (c :: more)

/-- Whether the gap has a line break. -/
def hasBreak : Gap → Bool
  | breaks _ _ => true
  | _ => false

/-- What a gap between two words stands for, the last character first. -/
def fold : Gap → List Char
  | none => []
  | blanks cs => cs
  | breaks (some '\n') [] => [' ']
  | breaks (some '\n') more => more
  | breaks (some c) more => more ++ [c]
  | breaks Option.none more => more

end Gap

/-! ### Plain scalars -/

namespace Plain

/-- A plain scalar: its text, whether a line break follows it, and the characters after it. -/
structure Result where
  text : List Char
  endsLine : Bool
  rest : Glyphs

/-- Whether a plain scalar ends here inside a word. -/
def endsAt (inFlow : Bool) (gs : Glyphs) : Bool :=
  match gs with
  | [] => true
  | g :: rest =>
    (g.char = ':' && Glyphs.atGap rest) ||
      (inFlow && (g.char = ',' || g.char = '?' || g.char = '[' || g.char = ']' || g.char = '\x7b' ||
        g.char = '\x7d'))

/-- Whether no word of a plain scalar may start here, after a gap. -/
def stopsAt (inFlow : Bool) (indent : Int) (gs : Glyphs) : Bool :=
  match gs with
  | [] => true
  | g :: _ => (!inFlow && (g.column : Int) < indent) || gs.atDocument || g.char = '#'

/-- A plain scalar of which `text`, the last character first, and a gap are read already. -/
def go (inFlow : Bool) (indent : Int) : List Char → Gap → Glyphs → Option Result
  | text, gap, [] => some ⟨text.reverse, gap.hasBreak, []⟩
  | text, gap, g :: rest =>
    if g.isBlank then
      if gap.hasBreak && g.char = '\t' && (g.column : Int) < indent then none
      else go inFlow indent text (gap.withBlank g.char) rest
    else if g.isBreak then go inFlow indent text (gap.withBreak g.char) rest
    else if (gap ≠ .none && stopsAt inFlow indent (g :: rest)) || endsAt inFlow (g :: rest) then
      some ⟨text.reverse, gap.hasBreak, g :: rest⟩
    else go inFlow indent (g.char :: (gap.fold ++ text)) .none rest

/-- A plain scalar. Its further lines have at least the given indentation, unless it stands in a
flow collection. -/
def read (inFlow : Bool) (indent : Int) (gs : Glyphs) : Option Result :=
  go inFlow indent [] .none gs

end Plain

/-! ### Quoted scalars -/

namespace Quoted

/-- What the characters so far have left open. -/
inductive State where
  | text
  /-- A single quote, which ends the scalar unless another one follows. -/
  | quote
  | backslash
  /-- An escape by code that lacks some digits. -/
  | code (missing value : Nat)

/-- The characters that stand for another one after a backslash. -/
def escape? (c : Char) : Option Char :=
  match c with
  | '0' => some (Char.ofNat 0x00)
  | 'a' => some (Char.ofNat 0x07)
  | 'b' => some (Char.ofNat 0x08)
  | 't' | '\t' => some (Char.ofNat 0x09)
  | 'n' => some (Char.ofNat 0x0A)
  | 'v' => some (Char.ofNat 0x0B)
  | 'f' => some (Char.ofNat 0x0C)
  | 'r' => some (Char.ofNat 0x0D)
  | 'e' => some (Char.ofNat 0x1B)
  | ' ' => some ' '
  | '"' => some '"'
  | '\'' => some '\''
  | '\\' => some '\\'
  | 'N' => some (Char.ofNat 0x85)
  | '_' => some (Char.ofNat 0xA0)
  | 'L' => some (Char.ofNat 0x2028)
  | 'P' => some (Char.ofNat 0x2029)
  | _ => none

/-- How many digits follow an escape by code. -/
def codeLength? (c : Char) : Option Nat :=
  match c with
  | 'x' => some 2
  | 'u' => some 4
  | 'U' => some 8
  | _ => none

/-- The value of a hexadecimal digit. -/
def digit? (c : Char) : Option Nat :=
  if '0' ≤ c && c ≤ '9' then some (c.toNat - 48)
  else if 'a' ≤ c && c ≤ 'f' then some (c.toNat - 87)
  else if 'A' ≤ c && c ≤ 'F' then some (c.toNat - 55)
  else none

/-- The character of a code. -/
def char? (n : Nat) : Option Char := if n.isValidChar then some (Char.ofNat n) else none

/-- A quoted scalar of which `text`, the last character first, and a gap are read already. -/
def go (single : Bool) : State → List Char → Gap → Glyphs → Option (List Char × Glyphs)
  | .quote, text, _, [] => some (text.reverse, [])
  | _, _, _, [] => none
  | .quote, text, gap, g :: rest =>
    if g.char = '\'' then go single .text ('\'' :: text) gap rest
    else some (text.reverse, g :: rest)
  | .backslash, text, gap, g :: rest =>
    if g.isBreak then go single .text text (.breaks none []) rest
    else
      match escape? g.char, codeLength? g.char with
      | some c, _ => go single .text (c :: text) gap rest
      | none, some missing => go single (.code missing 0) text gap rest
      | none, none => none
  | .code missing value, text, gap, g :: rest =>
    match digit? g.char with
    | none => none
    | some d =>
      if missing ≤ 1 then
        match char? (value * 16 + d) with
        | none => none
        | some c => go single .text (c :: text) gap rest
      else go single (.code (missing - 1) (value * 16 + d)) text gap rest
  | .text, text, gap, g :: rest =>
    if g.isBlank then go single .text text (gap.withBlank g.char) rest
    else if g.isBreak then go single .text text (gap.withBreak g.char) rest
    else if gap.hasBreak && Glyphs.atDocument (g :: rest) then none
    else
      let text := gap.fold ++ text
      if single && g.char = '\'' then go single .quote text .none rest
      else if !single && g.char = '"' then some (text.reverse, rest)
      else if !single && g.char = '\\' then go single .backslash text .none rest
      else go single .text (g.char :: text) .none rest

/-- A quoted scalar after its opening quote. -/
def read (single : Bool) (gs : Glyphs) : Option (List Char × Glyphs) := go single .text [] .none gs

end Quoted

/-! ### Block scalars -/

namespace Block

/-- What becomes of the line breaks at the end. -/
inductive Chomping where
  | strip
  | clip
  | keep
deriving DecidableEq, Repr

/-- What the header of a block scalar says: the chomping, and the indentation relative to the
surrounding one, zero if it is not said. -/
structure Header where
  chomping : Chomping
  increment : Nat

/-- A chomping indicator. -/
def chomping? (gs : Glyphs) : Option (Chomping × Glyphs) :=
  match gs with
  | [] => none
  | g :: rest =>
    if g.char = '+' then some (.keep, rest)
    else if g.char = '-' then some (.strip, rest)
    else none

/-- An indentation indicator, if there is one. It is not zero. -/
def increment? (gs : Glyphs) : Option (Nat × Glyphs) :=
  match gs with
  | [] => some (0, [])
  | g :: rest =>
    if g.char = '0' then none
    else if g.char.isDigit then some (g.char.toNat - 48, rest)
    else some (0, g :: rest)

/-- The header and the characters from the next line on. A comment may follow the indicators. -/
def header? (gs : Glyphs) : Option (Header × Glyphs) := do
  let (header, gs) ← match chomping? gs with
    | some (chomping, gs) => (increment? gs).map fun (n, gs) => (Header.mk chomping n, gs)
    | none => (increment? gs).map fun (n, gs) =>
      match if n = 0 then none else chomping? gs with
      | some (chomping, gs) => (Header.mk chomping n, gs)
      | none => (Header.mk .clip n, gs)
  let gs : Glyphs := gs.dropWhile Glyph.isBlank
  let gs : Glyphs := if gs.nextIs '#' then gs.dropWhile fun g => !g.isBreak else gs
  if gs.atLineEnd then return (header, gs.drop 1) else none

/-- Line breaks and indentation before a line with text: the breaks, the last one first, the deepest
indentation, and the characters from the text on. An indentation of zero is not known yet. -/
def skip (indent : Nat) : (deepest : Nat) → List Char → Glyphs → Option (Nat × List Char × Glyphs)
  | deepest, breaks, [] => some (deepest, breaks, [])
  | deepest, breaks, g :: rest =>
    let inIndent := indent = 0 || g.column < indent
    if inIndent && g.char = ' ' then skip indent deepest breaks rest
    else if inIndent && g.char = '\t' then none
    else
      let deepest := max deepest g.column
      if g.isBreak then skip indent deepest (g.char :: breaks) rest
      else some (deepest, breaks, g :: rest)

/-- The text of a block scalar, the last character first, and the line breaks at its end. -/
structure Body where
  text : List Char
  /-- The break after the last line. -/
  lastBreak : List Char
  /-- The breaks of empty lines after it, the last one first. -/
  emptyLines : List Char
  rest : Glyphs

/-- Lines of text with the given indentation, at most `count`. `indented` says whether the line
before starts with a blank, so that the break after it is not folded. -/
def lines (literal : Bool) (indent : Nat) : (count : Nat) → (indented : Bool) → Body → Option Body
  | 0, _, body => some body
  | count + 1, indented, body =>
    match body.rest with
    | [] => some body
    | g :: _ =>
      if g.column ≠ indent then some body
      else
        let folds := !literal && !indented && !g.isBlank && body.lastBreak = ['\n']
        let joint :=
          if !folds then body.lastBreak else if body.emptyLines.isEmpty then [' '] else []
        let line := (body.rest.takeWhile fun g => !g.isBreak).map Glyph.char
        let after := body.rest.dropWhile fun g => !g.isBreak
        match skip indent 0 [] (after.drop 1) with
        | none => none
        | some (_, breaks, rest) =>
          lines literal indent count g.isBlank
            ⟨line.reverse ++ body.emptyLines ++ joint ++ body.text,
              (after.take 1).map Glyph.char, breaks, rest⟩

/-- A block scalar after its indicator, inside a block of the given indentation. -/
def read (literal : Bool) (outer : Int) (gs : Glyphs) : Option (List Char × Glyphs) := do
  let (header, gs) ← header? gs
  let stated := if header.increment = 0 then 0 else (max outer 0).toNat + header.increment
  let (deepest, breaks, gs) ← skip stated 0 [] gs
  let indent := if stated = 0 then max deepest (max (outer + 1) 1).toNat else stated
  let body ← lines literal indent gs.length false ⟨[], [], breaks, gs⟩
  let text := match header.chomping with
    | .strip => body.text
    | .clip => body.lastBreak ++ body.text
    | .keep => body.emptyLines ++ body.lastBreak ++ body.text
  return (text.reverse, body.rest)

end Block

end Reroute.Yaml
