import Reroute.Text.Basic

/-!
# Base64

Bytes written with 64 characters, padded to groups of four. Line breaks between the characters do
not count.
-/

namespace Reroute.Base64

/-- The value of a character. -/
def digit? (b : UInt8) : Option Nat :=
  let n := b.toNat
  if 65 ≤ n && n ≤ 90 then some (n - 65)
  else if 97 ≤ n && n ≤ 122 then some (n - 71)
  else if 48 ≤ n && n ≤ 57 then some (n + 4)
  else if n = 43 then some 62
  else if n = 47 then some 63
  else none

/-- The padding character. -/
def pad : UInt8 := Text.byte '='

/-- The bytes of groups of four characters. Only the last group may be padded. -/
def groups : Text → Option Text
  | [] => some []
  | a :: b :: c :: d :: rest => do
    let x ← digit? a
    let y ← digit? b
    let first := (x * 4 + y / 16).toUInt8
    if c = pad && d = pad && rest.isEmpty then return [first]
    let z ← digit? c
    let second := (y % 16 * 16 + z / 4).toUInt8
    if d = pad && rest.isEmpty then return [first, second]
    let w ← digit? d
    return first :: second :: (z % 4 * 64 + w).toUInt8 :: (← groups rest)
  | _ => none

/-- The bytes of a text. -/
def decode? (t : Text) : Option Text :=
  groups (t.filter fun b => b ≠ Text.newline && b ≠ Text.byte '\r')

end Reroute.Base64
