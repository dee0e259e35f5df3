import Reroute.Proofs.Text.Utf8

/-!
# ASCII texts and runes

A byte below 128 is a rune of its own, and no other rune has such a byte. So a reader of runes that
looks for ASCII only sees the same as a reader of bytes.

## Main definitions

* `Text.IsAscii` — texts of bytes below 128
* `Text.asciiChar` — the character of an ASCII byte

## Main results

* `Text.runes_cons_of_lt` — an ASCII byte is the first rune of a text that starts with it
* `Text.runes_cons_of_ge` — any other rune takes bytes from 128 on only
* `Text.rune_induction` — induction over a text rune by rune
-/

namespace Reroute

namespace Rune

/-- The encoding of a code point that starts with a byte from 128 on has only such bytes, and as
many as the width of the code point says. -/
theorem exists_append_of_scalar? {lead : UInt8} {rest after : Text} {c : Char}
    (hl : 128 ≤ lead.toNat) (h : scalar? lead rest = some (c, after)) :
    ∃ more, rest = more ++ after ∧ (∀ b ∈ more, 128 ≤ b.toNat) ∧ 128 ≤ c.toNat ∧
      c.utf8Size = more.length + 1 := by
  obtain ⟨lead', more, henc, -, hmore⟩ := exists_utf8EncodeChar_eq c
  have heq := eq_append_of_scalar? h
  rw [henc, List.cons_append] at heq
  obtain ⟨rfl, rfl⟩ := List.cons.inj heq
  refine ⟨more, rfl, fun b hb => (hmore b hb).1, ?_, ?_⟩
  · -- the encoding of a smaller code point is that number itself
    rcases utf8EncodeChar_cases c with ⟨a, henc', ha, -⟩ | ⟨_, _, _, _, _, hlo, _⟩ |
      ⟨_, _, _, _, _, _, _, hlo, _⟩ | ⟨_, _, _, _, _, _, _, _, _, hlo⟩
    · rw [henc] at henc'
      rw [← ha, ← (List.cons.inj henc').1]
      exact hl
    all_goals omega
  · rw [← String.length_utf8EncodeChar, henc, List.length_cons]

end Rune

namespace Text

/-- A text of bytes below 128. -/
def IsAscii (t : Text) : Prop := ∀ b ∈ t, b.toNat < 128

instance (t : Text) : Decidable (IsAscii t) := inferInstanceAs (Decidable (∀ b ∈ t, b.toNat < 128))

/-- The character of an ASCII byte. -/
def asciiChar (b : UInt8) : Char := Char.ofNat b.toNat

theorem toNat_asciiChar {b : UInt8} (hb : b.toNat < 128) : (asciiChar b).toNat = b.toNat :=
  Rune.toNat_ofNat (.inl (by omega))

theorem asciiChar_inj {a b : UInt8} (ha : a.toNat < 128) (hb : b.toNat < 128) :
    asciiChar a = asciiChar b ↔ a = b := by
  constructor
  · intro h
    rw [← UInt8.toNat_inj, ← toNat_asciiChar ha, ← toNat_asciiChar hb, h]
  · rintro rfl
    rfl

/-- An ASCII byte is a rune of its own. -/
theorem runes_cons_of_lt {b : UInt8} (hb : b.toNat < 128) (rest : Text) :
    runes (b :: rest) = .scalar (asciiChar b) :: runes rest := by
  have henc : String.utf8EncodeChar (asciiChar b) = [b] := by
    have hval : (asciiChar b).val.toNat = b.toNat := toNat_asciiChar hb
    rw [String.utf8EncodeChar, hval, if_pos (by omega), UInt8.ofNat_toNat]
  rw [← runes_encode_append, henc, List.singleton_append]

/-- A rune that starts with a byte from 128 on has no byte below and is no ASCII character. -/
theorem runes_cons_of_ge {b : UInt8} (hb : 128 ≤ b.toNat) (rest : Text) :
    ∃ r more after, rest = more ++ after ∧ (∀ x ∈ more, 128 ≤ x.toNat) ∧ 128 ≤ r.char.toNat ∧
      r.width = more.length + 1 ∧ runes (b :: rest) = r :: runes after := by
  cases hs : Rune.scalar? b rest with
  | none =>
    have hstray : 128 ≤ '\uFFFD'.toNat := by decide
    exact ⟨.stray b, [], rest, rfl, by simp, hstray, rfl, runes_cons_of_none hs⟩
  | some pair =>
    obtain ⟨c, after⟩ := pair
    obtain ⟨more, hrest, hmore, hc, hwidth⟩ := Rune.exists_append_of_scalar? hb hs
    refine ⟨.scalar c, more, after, hrest, hmore, hc, hwidth, ?_⟩
    rw [Rune.eq_append_of_scalar? hs, runes_encode_append]

/-- Texts are read rune by rune: an ASCII byte, or a rune of bytes from 128 on. -/
theorem rune_induction {P : Text → Prop} (nil : P [])
    (ascii : ∀ b rest, b.toNat < 128 → runes (b :: rest) = .scalar (asciiChar b) :: runes rest →
      P rest → P (b :: rest))
    (other : ∀ r b more after, 128 ≤ b.toNat → (∀ x ∈ more, 128 ≤ x.toNat) →
      128 ≤ r.char.toNat → r.width = more.length + 1 →
      runes (b :: (more ++ after)) = r :: runes after → P after → P (b :: (more ++ after)))
    (t : Text) : P t := by
  induction h : t.length using Nat.strong_induction_on generalizing t with
  | h n ih =>
    cases t with
    | nil => exact nil
    | cons b rest =>
      by_cases hb : b.toNat < 128
      · exact ascii b rest hb (runes_cons_of_lt hb rest)
          (ih rest.length (by simp [← h]) rest rfl)
      · obtain ⟨r, more, after, rfl, hmore, hr, hwidth, hrunes⟩ :=
          runes_cons_of_ge (Nat.not_lt.1 hb) rest
        refine other r b more after (Nat.not_lt.1 hb) hmore hr hwidth hrunes
          (ih after.length ?_ after rfl)
        rw [← h]
        simp only [List.length_cons, List.length_append]
        omega

end Text

end Reroute
