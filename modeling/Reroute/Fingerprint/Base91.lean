import Reroute.Text.Basic

/-!
# basE91

A text form for bytes with 91 characters. Bits are taken from the lowest bit of each byte on. Two
characters carry a value below 91 · 91 = 8281: thirteen bits, or fourteen if the thirteen have a
value of at most 88, since then the value stays below 8281 with one bit more.

## Main definitions

* `Base91.alphabet` — the 91 characters, in the order of their values
* `Base91.encode` — the text form of bytes
-/

namespace Reroute.Base91

/-- The characters, in the order of their values. -/
def alphabet : Text :=
  "ABCDEFGHIJKLMNOPQRSTUVWXYZabcdefghijklmnopqrstuvwxyz0123456789!#$%&()*+,./:;<=>?@[]^_`\x7b|\x7d~\""

/-- The character of a value below 91. -/
def symbol (value : Nat) : UInt8 := alphabet.getD value 0

/-- The two characters of a value below 8281, the lower one first. -/
def pair (value : Nat) : Text := [symbol (value % 91), symbol (value / 91)]

/-- The characters of the bits that are left over. -/
def finish (queue bits : Nat) : Text :=
  if bits = 0 then []
  else if bits > 7 ∨ queue > 90 then pair queue
  else [symbol (queue % 91)]

/-- Encodes bytes behind a queue of bits that are not written yet. -/
def encodeFrom (queue bits : Nat) : Text → Text
  | [] => finish queue bits
  | b :: rest =>
    let queue := queue + b.toNat * 2 ^ bits
    let bits := bits + 8
    if bits ≤ 13 then encodeFrom queue bits rest
    else if queue % 2 ^ 13 > 88 then
      pair (queue % 2 ^ 13) ++ encodeFrom (queue / 2 ^ 13) (bits - 13) rest
    else pair (queue % 2 ^ 14) ++ encodeFrom (queue / 2 ^ 14) (bits - 14) rest

/-- The text form of bytes. -/
def encode (t : Text) : Text := encodeFrom 0 0 t

end Reroute.Base91
