/-!
# Number literals

Which spellings are numbers. An integer may have a sign and a base: `0x`, `0o` and `0b` in either
case, and a leading zero alone also for octal digits. An integer has to fit into 64 bits.

## Main definitions

* `Literal.readNat` — the value of digits in a base
* `Literal.readInt` — the value of an integer in any base
* `Literal.isFloat` — whether a text is a decimal floating point number that is not too large
-/

namespace Reroute.Literal

/-- Why a text is no integer. -/
inductive Failure where
  /-- The text has not the form of an integer. -/
  | malformed
  /-- The integer does not fit. -/
  | outOfRange
deriving DecidableEq, Repr

/-- The value of a digit in the bases up to 36. -/
def digit? (c : Char) : Option Nat :=
  if '0' ≤ c && c ≤ '9' then some (c.toNat - 48)
  else if 'a' ≤ c && c ≤ 'z' then some (c.toNat - 87)
  else if 'A' ≤ c && c ≤ 'Z' then some (c.toNat - 55)
  else none

/-- The value of digits that follow those of a value, below a limit. The first fault counts. -/
def readDigits (base limit : Nat) : Nat → List Char → Except Failure Nat
  | value, [] => .ok value
  | value, c :: rest =>
    match digit? c with
    | none => .error .malformed
    | some d =>
      if base ≤ d then .error .malformed
      else if limit ≤ value * base + d then .error .outOfRange
      else readDigits base limit (value * base + d) rest

/-- The value of digits in a base, below a limit. -/
def readNat (base limit : Nat) (cs : List Char) : Except Failure Nat :=
  if cs.isEmpty then .error .malformed else readDigits base limit 0 cs

/-- The base that the start of a number states, and the digits after it. -/
def splitBase (cs : List Char) : Nat × List Char :=
  match cs with
  | '0' :: c :: rest =>
    if (c = 'x' || c = 'X') && !rest.isEmpty then (16, rest)
    else if (c = 'o' || c = 'O') && !rest.isEmpty then (8, rest)
    else if (c = 'b' || c = 'B') && !rest.isEmpty then (2, rest)
    else (8, c :: rest)
  | _ => (10, cs)

/-- Whether underscores stand only between digits, where a base counts as a digit. `last` is the
kind of the character before: `d` for a digit, `u` for an underscore, and any other. -/
def underscoresFit (isHex : Bool) : (last : Char) → List Char → Bool
  | last, [] => last ≠ 'u'
  | last, c :: rest =>
    if ('0' ≤ c && c ≤ '9') || (isHex && (('a' ≤ c && c ≤ 'f') || ('A' ≤ c && c ≤ 'F'))) then
      underscoresFit isHex 'd' rest
    else if c = '_' then last = 'd' && underscoresFit isHex 'u' rest
    else last ≠ 'u' && underscoresFit isHex '!' rest

/-- Whether the underscores of a number stand where they may. -/
def hasFitUnderscores (cs : List Char) : Bool :=
  match cs with
  | '0' :: c :: rest =>
    if c ∈ ['x', 'X', 'o', 'O', 'b', 'B'] then underscoresFit (c = 'x' || c = 'X') 'd' rest
    else underscoresFit false '!' cs
  | _ => underscoresFit false '!' cs

/-- The sign and the digits of a number. -/
def splitSign (cs : List Char) : Bool × List Char :=
  match cs with
  | '-' :: rest => (true, rest)
  | '+' :: rest => (false, rest)
  | _ => (false, cs)

/-- The value of an unsigned integer in the base that it states. A fault of the digits counts before
a fault of the underscores. -/
def readMagnitude (cs : List Char) : Except Failure Nat :=
  let (base, digits) := splitBase cs
  match readNat base (Nat.pow 2 64) (digits.filter (· ≠ '_')) with
  | .error e => .error e
  | .ok n => if cs.contains '_' && !hasFitUnderscores cs then .error .malformed else .ok n

/-- The value of a signed integer of 64 bits in the base that it states. -/
def readInt (cs : List Char) : Except Failure Int :=
  let (isNegative, digits) := splitSign cs
  if digits.isEmpty then .error .malformed
  else
    match readMagnitude digits with
    | .error e => .error e
    | .ok n =>
      if isNegative then if n ≤ Nat.pow 2 63 then .ok (-n) else .error .outOfRange
      else if n < Nat.pow 2 63 then .ok n
      else .error .outOfRange

/-! ### Floating point numbers -/

/-- The digits here, and the characters after them. -/
def spanDigits (cs : List Char) : List Char × List Char :=
  (cs.takeWhile Char.isDigit, cs.dropWhile Char.isDigit)

/-- The value of decimal digits. -/
def decimal (cs : List Char) : Nat := cs.foldl (fun n c => n * 10 + (c.toNat - 48)) 0

/-- The exponent at the end of a number, zero if there is none. -/
def exponent? (cs : List Char) : Option Int :=
  match cs with
  | [] => some 0
  | c :: rest =>
    if c = 'e' || c = 'E' then
      let (isNegative, digits) := splitSign rest
      if digits.isEmpty || !digits.all Char.isDigit then none
      else some (if isNegative then -(decimal digits : Int) else decimal digits)
    else none

/-- The digits, the number of them after the point, and the exponent of a decimal number. -/
def decimal? (cs : List Char) : Option (List Char × Nat × Int) :=
  let (whole, rest) := spanDigits (splitSign cs).2
  let (places, rest) := match rest with
    | '.' :: rest => spanDigits rest
    | _ => ([], rest)
  if whole.isEmpty && places.isEmpty then none
  else (exponent? rest).map fun e => (whole ++ places, places.length, e)

/-- The least number that no binary floating point number of 64 bits is close to. -/
def floatLimit : Nat := Nat.pow 2 1024 - Nat.pow 2 970

/-- Whether a text is a decimal floating point number that is not too large. -/
def isFloat (cs : List Char) : Bool :=
  match decimal? cs with
  | none => false
  | some (digits, places, e) =>
    let digits := digits.dropWhile (· = '0')
    let scale := e - places
    if digits.isEmpty || scale + digits.length ≤ 300 then true
    else if 400 < scale + digits.length then false
    else if 0 ≤ scale then decimal digits * Nat.pow 10 scale.toNat < floatLimit
    else decimal digits < floatLimit * Nat.pow 10 (-scale).toNat

end Reroute.Literal
