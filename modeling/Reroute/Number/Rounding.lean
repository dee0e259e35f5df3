/-!
# Rounding

Quotients rounded to the nearest number, and quotients as binary floating point numbers of 53 bits.

## Main definitions

* `roundDiv` — the number nearest to a quotient, the even one of two
* `Binary` — a number of at most 53 bits over a power of two
* `Binary.ofDiv` — the binary number nearest to a quotient
* `Binary.hundredths` — the nearest number of hundredths
-/

namespace Reroute

/-- The number nearest to a quotient. A half goes to the even neighbour. -/
def roundDiv (num den : Nat) : Nat :=
  let q := num / den
  let twice := 2 * (num % den)
  if den < twice ∨ (twice = den ∧ q % 2 = 1) then q + 1 else q

/-- The number `digits / 2 ^ scale`. -/
structure Binary where
  digits : Nat
  scale : Nat
deriving DecidableEq, Repr

namespace Binary

/-- How many binary digits are kept. -/
def precision : Nat := 53

/-- The nearest number of 53 significant binary digits. -/
def significant (n : Nat) : Nat :=
  let excess := Nat.log2 n + 1 - precision
  roundDiv n (Nat.pow 2 excess) * Nat.pow 2 excess

/-- The binary number nearest to a quotient that is at most one. -/
def ofDiv (num den : Nat) : Binary :=
  if num = 0 then ⟨0, 0⟩
  else
    let scale := precision - 1 + Nat.log2 den - Nat.log2 num
    let isShort := num * Nat.pow 2 scale < den * Nat.pow 2 (precision - 1)
    let scale := if isShort then scale + 1 else scale
    ⟨roundDiv (num * Nat.pow 2 scale) den, scale⟩

/-- The nearest number of hundredths. -/
def hundredths (b : Binary) : Nat := roundDiv (b.digits * 100) (Nat.pow 2 b.scale)

end Binary

end Reroute
