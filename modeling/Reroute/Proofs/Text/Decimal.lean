import Mathlib.Data.List.TakeWhile
import Mathlib.Logic.Function.Basic
import Reroute.Text.Basic

/-!
# Decimal texts

The decimal text of a number is its digits, each of them one byte, so it can be read back as long as
no digit follows.

## Main definitions

* `Text.decimal` — the number that digits stand for
* `Text.number?` — the number at the start of a text, and the rest

## Main results

* `Text.ofNat_injective` — different numbers have different texts
* `Text.number?_ofNat_append` — a number is read back
-/

namespace Reroute.Text

theorem ofNat_eq (n : Nat) : ofNat n = (Nat.toDigits 10 n).flatMap String.utf8EncodeChar := by
  rw [ofNat, ofString, Nat.toString_eq_ofList_toDigits, String.toList_ofList]

theorem ofNat_injective : Function.Injective ofNat := by
  intro m n h
  have hencoded : (toString m).toByteArray = (toString n).toByteArray := by
    rw [← String.utf8Encode_toList, ← String.utf8Encode_toList]
    exact congrArg List.toByteArray h
  have hstring := String.toByteArray_inj.1 hencoded
  rw [Nat.toString_eq_ofList_toDigits, Nat.toString_eq_ofList_toDigits] at hstring
  -- the digits give back the number
  rw [← Nat.ofDigitChars_ten_toDigits (n := m), String.ofList_injective hstring,
    Nat.ofDigitChars_ten_toDigits]

/-- A digit is one byte. -/
theorem exists_encode_digit {c : Char} (hc : c.isDigit = true) :
    ∃ b : UInt8, String.utf8EncodeChar c = [b] ∧ b.toNat = c.toNat ∧
      48 ≤ b.toNat ∧ b.toNat ≤ 57 := by
  have hdigit : 48 ≤ c.toNat ∧ c.toNat ≤ 57 := Char.isDigit_iff_toNat.1 hc
  have hascii : c.val ≤ 127 := UInt32.le_iff_toNat_le.2 (Nat.le_trans hdigit.2 (by decide))
  have hbyte : c.val.toUInt8.toNat = c.toNat := by
    rw [UInt32.toNat_toUInt8]
    exact Nat.mod_eq_of_lt (Nat.lt_of_le_of_lt hdigit.2 (by decide))
  exact ⟨c.val.toUInt8, String.utf8EncodeChar_eq_singleton (Char.utf8Size_eq_one_iff.2 hascii),
    hbyte, by rwa [hbyte]⟩

theorem isDigit_of_mem_toDigits {n : Nat} {c : Char} (h : c ∈ Nat.toDigits 10 n) :
    c.isDigit = true :=
  Nat.isDigit_of_mem_toDigits (by decide) (by decide) h

/-- The bytes of a decimal text are digits. -/
theorem toNat_of_mem_ofNat {n : Nat} {b : UInt8} (h : b ∈ ofNat n) :
    48 ≤ b.toNat ∧ b.toNat ≤ 57 := by
  rw [ofNat_eq, List.mem_flatMap] at h
  obtain ⟨c, hc, hb⟩ := h
  obtain ⟨b', henc, -, hdigit⟩ := exists_encode_digit (isDigit_of_mem_toDigits hc)
  rw [henc, List.mem_singleton] at hb
  rwa [hb]

/-! ### Reading numbers -/

/-- Whether a byte is a decimal digit. -/
def isDigit (b : UInt8) : Bool := 48 ≤ b.toNat && b.toNat ≤ 57

/-- The number that digits stand for. -/
def decimal (digits : Text) : Nat := digits.foldl (fun n b => 10 * n + (b.toNat - 48)) 0

/-- The number at the start of a text, and what follows its digits. -/
def number? (t : Text) : Option (Nat × Text) :=
  if (t.takeWhile isDigit).isEmpty then none
  else some (decimal (t.takeWhile isDigit), t.dropWhile isDigit)

theorem decimal_ofNat (n : Nat) : decimal (ofNat n) = n := by
  -- the digits are added up in the same way as characters
  have hfold : ∀ (cs : List Char) (start : Nat), (∀ c ∈ cs, c.isDigit = true) →
      (cs.flatMap String.utf8EncodeChar).foldl (fun n b => 10 * n + (b.toNat - 48)) start =
        Nat.ofDigitChars 10 cs start := by
    intro cs
    induction cs with
    | nil => intro start _; rw [Nat.ofDigitChars_nil]; rfl
    | cons c cs ih =>
      intro start hcs
      obtain ⟨hc, hcs⟩ := List.forall_mem_cons.1 hcs
      obtain ⟨b, henc, hb, -⟩ := exists_encode_digit hc
      rw [List.flatMap_cons, henc, List.singleton_append, List.foldl_cons, ih _ hcs, hb,
        Nat.ofDigitChars_cons]
      rfl
  rw [decimal, ofNat_eq, hfold _ _ fun c hc => isDigit_of_mem_toDigits hc,
    Nat.ofDigitChars_ten_toDigits]

theorem ofNat_ne_nil (n : Nat) : ofNat n ≠ [] := by
  rw [ofNat_eq]
  intro hnil
  obtain ⟨c, hc⟩ := List.exists_mem_of_ne_nil _ (Nat.toDigits_ne_nil (b := 10) (n := n))
  obtain ⟨b, henc, -⟩ := exists_encode_digit (isDigit_of_mem_toDigits hc)
  have hempty := List.flatMap_eq_nil_iff.1 hnil c hc
  rw [henc] at hempty
  cases hempty

/-- A number is read back if no digit follows it. -/
theorem number?_ofNat_append {n : Nat} {rest : Text} (h : ∀ b ∈ rest.head?, isDigit b = false) :
    number? (ofNat n ++ rest) = some (n, rest) := by
  have hdigits : ∀ b ∈ ofNat n, isDigit b = true := fun b hb => by
    simpa [isDigit] using toNat_of_mem_ofNat hb
  have hrest : rest.takeWhile isDigit = [] ∧ rest.dropWhile isDigit = rest := by
    cases rest with
    | nil => exact ⟨rfl, rfl⟩
    | cons b rest => simp [h b rfl]
  rw [number?, List.takeWhile_append_of_pos hdigits, List.dropWhile_append_of_pos hdigits, hrest.1,
    hrest.2, List.append_nil, if_neg (by simpa using ofNat_ne_nil n), decimal_ofNat]

end Reroute.Text
