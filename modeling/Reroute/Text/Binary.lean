import Reroute.Text.Basic

/-!
# Numbers in bytes

Numbers of a fixed width as bytes, the lowest or the highest first, and blocks of a given length at
the front of a text.

## Main results

* `Text.ofLittleEndian_littleEndian`, `Text.ofBigEndian_bigEndian` — a number that fits is read back
* `Text.block?_append` — a block is read back
-/

namespace Reroute.Text

/-- The lowest `width` bytes of a number, the lowest first. -/
def littleEndian : (width : Nat) → Nat → Text
  | 0, _ => []
  | width + 1, n => (n % 256).toUInt8 :: littleEndian width (n / 256)

/-- The number whose bytes, the lowest first, are given. -/
def ofLittleEndian : Text → Nat
  | [] => 0
  | b :: rest => b.toNat + 256 * ofLittleEndian rest

/-- The lowest `width` bytes of a number, the highest first. -/
def bigEndian (width n : Nat) : Text := (littleEndian width n).reverse

/-- The number whose bytes, the highest first, are given. -/
def ofBigEndian (t : Text) : Nat := ofLittleEndian t.reverse

/-- The first `size` bytes and what follows, if there are as many. -/
def block? (size : Nat) (t : Text) : Option (Text × Text) :=
  if size ≤ t.length then some (t.take size, t.drop size) else none

@[simp] theorem length_littleEndian (width n : Nat) : (littleEndian width n).length = width := by
  induction width generalizing n with
  | zero => rfl
  | succ width ih => simp [littleEndian, ih]

@[simp] theorem length_bigEndian (width n : Nat) : (bigEndian width n).length = width := by
  simp [bigEndian]

theorem ofLittleEndian_littleEndian {width n : Nat} (h : n < Nat.pow 256 width) :
    ofLittleEndian (littleEndian width n) = n := by
  induction width generalizing n with
  | zero => simp at h; simp [littleEndian, ofLittleEndian, h]
  | succ width ih =>
    have hq : n / 256 < Nat.pow 256 width := by
      rw [Nat.div_lt_iff_lt_mul (by decide)]
      exact h
    have hb : (n % 256).toUInt8.toNat = n % 256 := by
      simp
    rw [littleEndian, ofLittleEndian, ih hq, hb]
    omega

theorem ofBigEndian_bigEndian {width n : Nat} (h : n < Nat.pow 256 width) :
    ofBigEndian (bigEndian width n) = n := by
  simp [ofBigEndian, bigEndian, ofLittleEndian_littleEndian h]

/-- A block is read back. -/
theorem block?_append (t rest : Text) : block? t.length (t ++ rest) = some (t, rest) := by
  simp [block?]

end Reroute.Text
