import Reroute.Number.Calendar
import Reroute.Number.Literal
import Reroute.Text.Rune

/-!
# Kinds of YAML scalars

A plain scalar without a tag has the tag of what its text looks like: nothing, a truth value, an
integer, a floating point number, a point in time, or else a text. A tag for one of these kinds that
is written out must not contradict the text.

## Main definitions

* `Yaml.tagOf` — the tag of a plain scalar
* `Yaml.shortTag` — a tag with its common start cut down
* `Yaml.isSound` — whether a text is of the kind that its tag states
-/

namespace Reroute.Yaml

def nullTag : Text := "!!null"
def boolTag : Text := "!!bool"
def intTag : Text := "!!int"
def floatTag : Text := "!!float"
def timeTag : Text := "!!timestamp"
def textTag : Text := "!!str"
def binaryTag : Text := "!!binary"
def mergeTag : Text := "!!merge"
def sequenceTag : Text := "!!seq"
def mappingTag : Text := "!!map"

/-- The start that the tags of the YAML types have in common. -/
def commonLead : Text := "tag:yaml.org,2002:"

/-- A tag with its common start cut down. -/
def shortTag (tag : Text) : Text :=
  if tag.startsWith commonLead then "!!" ++ tag.drop commonLead.length else tag

/-! ### Points in time -/

open Calendar

/-- A date, and the characters after it. -/
def readDate (cs : List Char) : Option (List Char) := do
  let (year, cs) ← readFixed 4 cs
  let (month, cs) ← readShort (← readChar '-' cs)
  let (day, cs) ← readShort (← readChar '-' cs)
  if isDate year month day then return cs else none

/-- The characters after a fraction of a second, if there is one. -/
def afterFraction (cs : List Char) : List Char :=
  match cs with
  | c :: d :: rest =>
    if (c = '.' || c = ',') && d.isDigit then (d :: rest).dropWhile Char.isDigit else cs
  | _ => cs

/-- A time of day, and the characters after it. -/
def readTime (cs : List Char) : Option (List Char) := do
  let (hour, cs) ← readShort cs
  let (minute, cs) ← readShort (← readChar ':' cs)
  let (second, cs) ← readShort (← readChar ':' cs)
  if isTime hour minute second then return afterFraction cs else none

/-- Whether these characters are a time zone. -/
def isZone (cs : List Char) : Bool :=
  match cs with
  | ['Z'] => true
  | sign :: rest =>
    (sign = '+' || sign = '-') && (do
      let (hour, rest) ← readFixed 2 rest
      let (minute, rest) ← readFixed 2 (← readChar ':' rest)
      return rest.isEmpty && hour ≤ 24 && minute ≤ 60 : Option Bool) = some true
  | [] => false

/-- Whether these characters are a point in time: a date, or a date and a time of day with a zone if
a letter divides them and without one if a space does. -/
def isTimestamp (cs : List Char) : Bool :=
  match readDate cs with
  | none => false
  | some [] => true
  | some (c :: rest) =>
    match readTime rest with
    | none => false
    | some after => if c = ' ' then after.isEmpty else (c = 'T' || c = 't') && isZone after

/-! ### Tags of plain scalars -/

/-- The texts that stand for nothing. -/
def nulls : List String := ["", "~", "null", "Null", "NULL"]

/-- The truth values. -/
def bools : List String := ["true", "True", "TRUE", "false", "False", "FALSE"]

/-- The floating point numbers that are no numbers, or not finite. -/
def unusualFloats : List String := [
  ".nan", ".NaN", ".NAN", ".inf", ".Inf", ".INF", "+.inf", "+.Inf",
  "+.INF", "-.inf", "-.Inf", "-.INF"]

/-- Whether digits with underscores are an integer of 64 bits, with or without a sign. -/
def isInteger (cs : List Char) : Bool :=
  (Literal.readInt cs).isOk || (cs.all (· ≠ '+') && (Literal.readMagnitude cs).isOk)

/-- The tag of a plain scalar that starts like a number. -/
def numberTag (cs : List Char) : Text :=
  if isTimestamp cs then timeTag
  else
    let plain := cs.filter (· ≠ '_')
    if isInteger plain then intTag
    else if Literal.isFloat plain then floatTag
    else textTag

/-- The tag of a plain scalar. -/
def tagOf (t : Text) : Text :=
  match t.toString? with
  | none => textTag
  | some s =>
    if s ∈ nulls then nullTag
    else if s ∈ bools then boolTag
    else if s ∈ unusualFloats then floatTag
    else
      match s.toList with
      | [] => nullTag
      | c :: rest =>
        if c = '+' || c = '-' || c.isDigit then numberTag (c :: rest)
        else if c = '.' && Literal.isFloat (c :: rest) then floatTag
        else textTag

/-- The tags that say what a text looks like. -/
def telling : List Text := [nullTag, boolTag, intTag, floatTag, timeTag]

/-- Whether a text is of the kind that its tag states. An integer is a floating point number too,
and tags that say nothing about the text fit every text. -/
def isSound (tag text : Text) : Bool :=
  !telling.contains tag || tagOf text = tag || (tag = floatTag && tagOf text = intTag)

end Reroute.Yaml
