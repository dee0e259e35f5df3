/-!
# Dates and times of day

Which dates and times of day exist, and short readers for the numbers they are written with.

## Main definitions

* `Calendar.isDate`, `Calendar.isTime` — dates of the Gregorian calendar, times of day
* `Calendar.readShort` — a number of one or two digits
* `Calendar.readFixed` — a number with a given number of digits
-/

namespace Reroute.Calendar

/-- Whether a year has a leap day. -/
def isLeap (year : Nat) : Bool := year % 4 = 0 && (year % 100 ≠ 0 || year % 400 = 0)

/-- The days of a month. -/
def daysIn (year month : Nat) : Nat :=
  if month = 2 then if isLeap year then 29 else 28
  else if month ∈ [4, 6, 9, 11] then 30
  else 31

/-- Whether there is such a date. -/
def isDate (year month day : Nat) : Bool :=
  1 ≤ month && month ≤ 12 && 1 ≤ day && day ≤ daysIn year month

/-- Whether there is such a time of day. -/
def isTime (hour minute second : Nat) : Bool := hour < 24 && minute < 60 && second < 60

/-- The value of decimal digits. -/
def value (cs : List Char) : Nat := cs.foldl (fun n c => n * 10 + (c.toNat - 48)) 0

/-- A number of one or two digits, and the characters after it. -/
def readShort (cs : List Char) : Option (Nat × List Char) :=
  let digits := (cs.take 2).takeWhile Char.isDigit
  if digits.isEmpty then none else some (value digits, cs.drop digits.length)

/-- A number with a given number of digits, and the characters after it. -/
def readFixed (width : Nat) (cs : List Char) : Option (Nat × List Char) :=
  let digits := (cs.take width).takeWhile Char.isDigit
  if digits.length = width then some (value digits, cs.drop width) else none

/-- The characters after a given one. -/
def readChar (c : Char) (cs : List Char) : Option (List Char) :=
  match cs with
  | [] => none
  | d :: rest => if d = c then some rest else none

end Reroute.Calendar
