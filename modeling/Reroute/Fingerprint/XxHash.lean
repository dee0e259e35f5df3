import Reroute.Text.Basic

/-!
# xxHash64

The 64 bit hash xxHash64 of a text, with seed zero. Four lanes each take every fourth word of the
text as long as full stripes of 32 bytes last; what remains is mixed in by words, half words and
bytes. All arithmetic is modulo 2^64.

## Main definitions

* `XxHash.sum` — the hash of a text
-/

namespace Reroute.XxHash

def prime1 : UInt64 := 11400714785074694791
def prime2 : UInt64 := 14029467366897019727
def prime3 : UInt64 := 1609587929392839161
def prime4 : UInt64 := 9650029242287828579
def prime5 : UInt64 := 2870177450012600261

/-- The word turned left by a number of bits below 64. -/
def rotate (x : UInt64) (n : UInt64) : UInt64 := (x <<< n) ||| (x >>> (64 - n))

/-- One lane takes in one word. -/
def round (lane word : UInt64) : UInt64 := rotate (lane + word * prime2) 31 * prime1

/-- The hash takes in one lane. -/
def merge (hash lane : UInt64) : UInt64 := (hash ^^^ round 0 lane) * prime1 + prime4

/-- The number whose bytes, the lowest first, are given. -/
def littleEndian : Text → UInt64
  | [] => 0
  | b :: rest => b.toUInt64 + littleEndian rest * 256

/-- The full words of a text, eight bytes each. -/
def words : Text → List UInt64
  | b₀ :: b₁ :: b₂ :: b₃ :: b₄ :: b₅ :: b₆ :: b₇ :: rest =>
    littleEndian [b₀, b₁, b₂, b₃, b₄, b₅, b₆, b₇] :: words rest
  | _ => []

/-- The four lanes. -/
structure Lanes where
  first : UInt64
  second : UInt64
  third : UInt64
  fourth : UInt64

/-- The lanes before any word. -/
def Lanes.start : Lanes := ⟨prime1 + prime2, prime2, 0, 0 - prime1⟩

/-- The lanes take in full stripes of four words. -/
def Lanes.absorb (lanes : Lanes) : List UInt64 → Lanes
  | w₁ :: w₂ :: w₃ :: w₄ :: rest =>
    absorb ⟨round lanes.first w₁, round lanes.second w₂, round lanes.third w₃,
      round lanes.fourth w₄⟩ rest
  | _ => lanes

/-- The lanes joined into one hash. -/
def Lanes.join (lanes : Lanes) : UInt64 :=
  let hash := rotate lanes.first 1 + rotate lanes.second 7 + rotate lanes.third 12 +
    rotate lanes.fourth 18
  merge (merge (merge (merge hash lanes.first) lanes.second) lanes.third) lanes.fourth

/-- The hash takes in single bytes. -/
def mixBytes (hash : UInt64) (t : Text) : UInt64 :=
  t.foldl (fun hash b => rotate (hash ^^^ b.toUInt64 * prime5) 11 * prime1) hash

/-- The hash takes in fewer than eight bytes: first half a word, if there is one. -/
def mixHalf (hash : UInt64) : Text → UInt64
  | b₀ :: b₁ :: b₂ :: b₃ :: rest =>
    let half := littleEndian [b₀, b₁, b₂, b₃]
    mixBytes (rotate (hash ^^^ half * prime1) 23 * prime2 + prime3) rest
  | t => mixBytes hash t

/-- The hash takes in the bytes after the last full stripe. -/
def mixTail (hash : UInt64) : Text → UInt64
  | b₀ :: b₁ :: b₂ :: b₃ :: b₄ :: b₅ :: b₆ :: b₇ :: rest =>
    let word := littleEndian [b₀, b₁, b₂, b₃, b₄, b₅, b₆, b₇]
    mixTail (rotate (hash ^^^ round 0 word) 27 * prime1 + prime4) rest
  | t => mixHalf hash t

/-- The last step spreads every bit over the whole hash. -/
def avalanche (hash : UInt64) : UInt64 :=
  let hash := (hash ^^^ (hash >>> 33)) * prime2
  let hash := (hash ^^^ (hash >>> 29)) * prime3
  hash ^^^ (hash >>> 32)

/-- The hash of a text. -/
def sum (t : Text) : UInt64 :=
  let stripes := t.length / 32 * 32
  let start := if t.length < 32 then prime5 else (Lanes.start.absorb (words (t.take stripes))).join
  avalanche (mixTail (start + t.length.toUInt64) (t.drop stripes))

end Reroute.XxHash
