import Reroute.Number.Calendar
import Reroute.Number.Literal
import Reroute.Text.Rune

/-!
# TOML scalars

Strings, numbers and dates of TOML. A string has one line, or several between triple quotes; between
double quotes a backslash starts an escape, between single quotes every character stands for itself.
The readers take the characters from the scalar on and return it with the characters after it.

## Main definitions

* `Toml.readString` — strings in all four notations
* `Toml.Scalar`, `Toml.readNumber` — numbers, dates and times
-/

namespace Reroute.Toml

/-- Whether a character is a space or a tab. -/
def isBlank (c : Char) : Bool := c = ' ' || c = '\t'

/-- Whether a character ends a line. -/
def isBreak (c : Char) : Bool := c = '\n' || c = '\r'

/-! ### Escapes -/

/-- The characters that stand for another one after a backslash. -/
def escape? (c : Char) : Option Char :=
  match c with
  | 'b' => some (Char.ofNat 0x08)
  | 't' => some (Char.ofNat 0x09)
  | 'n' => some (Char.ofNat 0x0A)
  | 'f' => some (Char.ofNat 0x0C)
  | 'r' => some (Char.ofNat 0x0D)
  | '"' => some '"'
  | '\\' => some '\\'
  | _ => none

/-- The value of a hexadecimal digit. -/
def hexDigit? (c : Char) : Option Nat :=
  match Literal.digit? c with
  | some d => if d < 16 then some d else none
  | none => none

/-- What the characters so far have left open. -/
inductive Pending where
  | nothing
  | backslash
  /-- An escape by code that lacks some digits. -/
  | code (missing value : Nat)

/-- The characters that a text with escapes stands for. -/
def unescape : Pending → List Char → Option (List Char)
  | .nothing, [] => some []
  | _, [] => none
  | .nothing, c :: rest =>
    if c = '\\' then unescape .backslash rest else (unescape .nothing rest).map (c :: ·)
  | .backslash, c :: rest =>
    if c = 'u' then unescape (.code 4 0) rest
    else if c = 'U' then unescape (.code 8 0) rest
    else
      match escape? c with
      | none => none
      | some e => (unescape .nothing rest).map (e :: ·)
  | .code missing value, c :: rest =>
    match hexDigit? c with
    | none => none
    | some d =>
      let value := value * 16 + d
      if 1 < missing then unescape (.code (missing - 1) value) rest
      else if value.isValidChar then (unescape .nothing rest).map (Char.ofNat value :: ·)
      else none

/-! ### Strings -/

/-- The characters up to a closing quote on the same line, and those after it. A quote after a
backslash does not close, if escapes count. -/
def untilQuote (quote : Char) (escapes : Bool) : List Char → Option (List Char × List Char)
  | [] => none
  | '\\' :: c :: rest =>
    if escapes then
      if isBreak c then none
      else (untilQuote quote escapes rest).map fun (t, after) => ('\\' :: c :: t, after)
    else if c = quote then some (['\\'], rest)
    else if isBreak c then none
    else (untilQuote quote escapes rest).map fun (t, after) => ('\\' :: c :: t, after)
  | c :: rest =>
    if c = quote then some ([], rest)
    else if isBreak c then none
    else (untilQuote quote escapes rest).map fun (t, after) => (c :: t, after)

/-- Whether one more quote would be the sixth in a row. `text` is what was read, the last character
first; a quote after a backslash is not counted. -/
def isSixth (quote : Char) (escapes : Bool) (text : List Char) : Bool :=
  let run := quote :: quote :: quote :: text
  (run.takeWhile (· = quote)).length ≥ 5 && !(escapes && run[5]? = some '\\')

/-- The characters up to three closing quotes, and those after them. Of a row of up to five quotes
the last three close. `text` is what was read already, the last character first. -/
def untilTriple (quote : Char) (escapes : Bool) :
    List Char → List Char → Option (List Char × List Char)
  | _, [] => none
  | text, c :: rest =>
    if escapes && c = '\\' then
      match rest with
      | [] => none
      | d :: rest => untilTriple quote escapes (d :: c :: text) rest
    else if c = quote then
      match rest with
      | d :: e :: after =>
        if d = quote && e = quote then
          if after.head? = some quote then
            if isSixth quote escapes text then none
            else untilTriple quote escapes (c :: text) (d :: e :: after)
          else some (text.reverse, after)
        else untilTriple quote escapes (c :: text) (d :: e :: after)
      | _ => none
    else untilTriple quote escapes (c :: text) rest

/-- The text without a line break at its start. -/
def withoutFirstBreak (cs : List Char) : List Char :=
  match cs with
  | '\n' :: rest => rest
  | '\r' :: '\n' :: rest => rest
  | _ => cs

/-- The text without the line breaks after a backslash and the white space around them. -/
def joinLines (cs : List Char) : List Char :=
  match cs with
  | [] => []
  | '\\' :: '\\' :: rest => '\\' :: '\\' :: joinLines rest
  | c :: rest =>
    let space := rest.takeWhile fun d => isBlank d || isBreak d
    if c = '\\' && space.contains '\n' then joinLines (rest.drop space.length)
    else c :: joinLines rest
termination_by cs.length

/-- A string on one line, after its opening quote. -/
def readLine (quote : Char) (cs : List Char) : Option (List Char × List Char) := do
  let (t, rest) ← untilQuote quote (quote = '"') cs
  return (← if quote = '"' then unescape .nothing t else some t, rest)

/-- A string on several lines, after its opening quotes. -/
def readLines (quote : Char) (cs : List Char) : Option (List Char × List Char) := do
  let (t, rest) ← untilTriple quote (quote = '"') [] cs
  let t := withoutFirstBreak t
  return (← if quote = '"' then unescape .nothing (joinLines t) else some t, rest)

/-- A string from its opening quote on. -/
def readString (cs : List Char) : Option (List Char × List Char) :=
  match cs with
  | '"' :: '"' :: '"' :: rest => readLines '"' rest
  | '\'' :: '\'' :: '\'' :: rest => readLines '\'' rest
  | '"' :: rest => readLine '"' rest
  | '\'' :: rest => readLine '\'' rest
  | _ => none

/-! ### Numbers and dates -/

/-- A scalar that is no string. -/
inductive Scalar where
  | integer (value : Int)
  /-- A floating point number as it is written. -/
  | float (written : List Char)
  | boolean (value : Bool)
  /-- A date, a time of day or both, as it is written. -/
  | datetime (written : List Char)
deriving DecidableEq, Repr

/-- Whether a character is a hexadecimal digit. -/
def isHex (c : Char) : Bool := (hexDigit? c).isSome

/-- Whether every underscore follows a digit and the last character is one. -/
def underscoresFit (isDigit : Bool) : List Char → Bool
  | [] => isDigit
  | c :: rest => (c ≠ '_' || isDigit) && underscoresFit (isHex c) rest

/-- Whether a number has a zero before another digit. -/
def hasLeadingZero (cs : List Char) : Bool :=
  match cs with
  | '0' :: c :: _ => c ≠ 'b' && c ≠ 'o' && c ≠ 'x'
  | '+' :: '0' :: _ :: _ | '-' :: '0' :: _ :: _ => true
  | _ => false

/-- The integer that is written so. -/
def integer? (cs : List Char) : Option Scalar :=
  if !underscoresFit false cs || hasLeadingZero cs then none
  else
    match Literal.readInt cs with
    | .ok n => some (.integer n)
    | .error _ => none

/-- The parts of a number between its point and its exponent. -/
def floatParts : List Char → List Char → List (List Char)
  | part, [] => [part.reverse]
  | part, c :: rest =>
    if c = '.' || c = 'e' || c = 'E' then part.reverse :: floatParts [] rest
    else floatParts (c :: part) rest

/-- Whether every point is followed by a digit. -/
def pointsFit : List Char → Bool
  | [] => true
  | '.' :: rest => (rest.head?.map Char.isDigit).getD false && pointsFit rest
  | _ :: rest => pointsFit rest

/-- The floating point number that is written so. -/
def float? (cs : List Char) : Option Scalar :=
  let parts := (floatParts [] cs).filter fun part => !part.isEmpty
  if !parts.all (underscoresFit false) || hasLeadingZero (parts.headD []) || !pointsFit cs ||
      !Literal.isFloat (cs.filter (· ≠ '_')) then none
  else some (.float cs)

open Calendar

/-- The characters after a date. -/
def afterDate (cs : List Char) : Option (List Char) := do
  let (year, cs) ← readFixed 4 cs
  let (month, cs) ← readFixed 2 (← readChar '-' cs)
  let (day, cs) ← readFixed 2 (← readChar '-' cs)
  if isDate year month day then return cs else none

/-- The characters after a fraction of a second, if there is one. -/
def afterFraction (cs : List Char) : List Char :=
  match cs with
  | '.' :: d :: rest => if d.isDigit then (d :: rest).dropWhile Char.isDigit else cs
  | _ => cs

/-- The characters after a time of day. -/
def afterTime (cs : List Char) : Option (List Char) := do
  let (hour, cs) ← readShort cs
  let (minute, cs) ← readFixed 2 (← readChar ':' cs)
  let (second, cs) ← readFixed 2 (← readChar ':' cs)
  if isTime hour minute second then return afterFraction cs else none

/-- Whether these characters are a time zone. -/
def isZone (cs : List Char) : Bool :=
  match cs with
  | ['Z'] | ['z'] => true
  | sign :: rest =>
    (sign = '+' || sign = '-') && (do
      let (hour, rest) ← readFixed 2 rest
      let (minute, rest) ← readFixed 2 (← readChar ':' rest)
      return rest.isEmpty && hour ≤ 24 && minute ≤ 60 : Option Bool) = some true
  | [] => false

/-- Whether these characters are a date, a time of day, or both, with or without a zone. -/
def isDatetime (cs : List Char) : Bool :=
  match afterDate cs with
  | none => afterTime cs = some []
  | some [] => true
  | some (c :: rest) =>
    match afterTime rest with
    | none => false
    | some after => (c = 'T' || c = 't' || c = ' ') && (after.isEmpty || isZone after)

/-- The date or time that is written so. -/
def datetime? (cs : List Char) : Option Scalar :=
  let cs := (cs.reverse.dropWhile (· = ' ')).reverse
  if isDatetime cs then some (.datetime cs) else none

/-- The characters of a class, read by `make`, and the characters after them. -/
def readSpan (isPart : Char → Bool) (make : List Char → Option Scalar) (cs : List Char) :
    Option (Scalar × List Char) :=
  (make (cs.takeWhile isPart)).map fun s => (s, cs.dropWhile isPart)

/-- Whether a character may stand in a floating point number. -/
def isFloatPart (c : Char) : Bool := c.isDigit || c ∈ ['_', '.', '-', '+', 'e', 'E']

/-- Whether a character may stand in a date. -/
def isDatePart (c : Char) : Bool :=
  c.isDigit || c ∈ ['-', ':', 'T', 't', ' ', '.', 'Z', 'z', '+']

/-- A decimal number of which a sign may be read already. What follows its first digits shows its
kind. -/
def readDecimal (sign cs : List Char) : Option (Scalar × List Char) :=
  let isWhole := fun c : Char => c.isDigit || c = '_'
  let float := fun part => float? (sign ++ part)
  match cs.dropWhile isWhole with
  | '.' :: _ | 'e' :: _ | 'E' :: _ => readSpan isFloatPart float cs
  | _ => readSpan isWhole (fun part => integer? (sign ++ part)) cs

/-- An integer with a base, which at least one digit follows. -/
def readBased (isDigit : Char → Bool) (base : Char) (cs : List Char) :
    Option (Scalar × List Char) :=
  match cs with
  | [] => none
  | c :: _ =>
    if isDigit c then
      readSpan (fun c => isDigit c || c = '_') (fun part => integer? ('0' :: base :: part)) cs
    else none

/-- A word for a number, and the characters after it. -/
def readWord (word cs : List Char) : Option (Scalar × List Char) :=
  if word.isPrefixOf cs then some (.float word, cs.drop word.length) else none

/-- A number after its sign. -/
def readSigned (sign : Char) (cs : List Char) : Option (Scalar × List Char) :=
  match cs with
  | 'i' :: _ => readWord "inf".toList cs
  | 'n' :: _ => readWord "nan".toList cs
  | '0' :: 'b' :: _ | '0' :: 'o' :: _ | '0' :: 'x' :: _ => none
  | c :: _ => if c.isDigit then readDecimal [sign] cs else none
  | [] => none

/-- A decimal number, a date or a time. What follows the first digits shows which. -/
def readDigits (cs : List Char) : Option (Scalar × List Char) :=
  match cs.dropWhile Char.isDigit with
  | '-' :: _ | ':' :: _ => readSpan isDatePart datetime? cs
  | _ => readDecimal [] cs

/-- A number, a date or a time from its first character on. -/
def readNumber (cs : List Char) : Option (Scalar × List Char) :=
  match cs with
  | '+' :: rest => readSigned '+' rest
  | '-' :: rest => readSigned '-' rest
  | 'i' :: _ => readWord "inf".toList cs
  | 'n' :: _ => readWord "nan".toList cs
  | '0' :: 'b' :: rest => readBased (fun c => c = '0' || c = '1') 'b' rest
  | '0' :: 'o' :: rest => readBased (fun c => '0' ≤ c && c ≤ '7') 'o' rest
  | '0' :: 'x' :: rest => readBased isHex 'x' rest
  | '0' :: c :: _ => if c.isDigit then readDigits cs else readDecimal [] cs
  | _ => readDigits cs

/-- A truth value. -/
def readBoolean (cs : List Char) : Option (Scalar × List Char) :=
  if "true".toList.isPrefixOf cs then some (.boolean true, cs.drop 4)
  else if "false".toList.isPrefixOf cs then some (.boolean false, cs.drop 5)
  else none

end Reroute.Toml
