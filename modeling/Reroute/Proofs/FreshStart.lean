import Reroute.Proofs.FirstSignature

/-!
# Reading from a fresh start

A byte that goes on no encoding is a fresh start for a reader: no encoding reaches across it. So the
text before it and the text from it on are read apart. Stray bytes and spelled characters of the one
do not depend on the other.

## Main results

* `Text.prefix_drop_append_iff` — no encoding reaches into a fresh start
* `Text.isStray_append_left`, `Text.isStray_append_right` — stray bytes before and behind it
* `Text.spelledAt_append_left`, `Text.spelledAt_append_right` — characters spelled before and behind
* `Text.SpelledAt.prefix_drop` — spelled characters stand in the text, strays apart
-/

namespace Reroute.Text

open Rune

variable {t u z : Text} {cs ds : List Char} {i j k : Nat}

/-! ### Encodings and stray bytes -/

/-- An encoding that starts in a text ends in it, if what follows does not go on an encoding. -/
theorem prefix_drop_of_append {c : Char} (hz : ∀ b ∈ z.head?, ¬ IsTail b) (hj : j < u.length)
    (h : String.utf8EncodeChar c <+: (u ++ z).drop j) : String.utf8EncodeChar c <+: u.drop j := by
  rw [List.drop_append_of_le_length (Nat.le_of_lt hj)] at h
  rcases List.prefix_or_prefix_of_prefix h (List.prefix_append _ _) with hin | ⟨v, hv⟩
  · exact hin
  cases v with
  | nil => rw [← hv, List.append_nil]
  | cons b v =>
    -- the encoding would go on with the first byte of what follows
    obtain ⟨lead, more, henc, -, hmore⟩ := exists_utf8EncodeChar_eq c
    obtain ⟨lead', front, hfront⟩ := List.exists_cons_of_ne_nil
      (List.ne_nil_of_length_pos (l := u.drop j) (by rw [List.length_drop]; omega))
    rw [← hv, List.prefix_append_right_inj] at h
    obtain ⟨rest, rfl⟩ := h
    rw [henc, hfront, List.cons_append, List.cons.injEq] at hv
    exact absurd (hmore b (hv.2 ▸ List.mem_append_right _ List.mem_cons_self)) (hz b rfl)

theorem prefix_drop_append_iff {c : Char} (hz : ∀ b ∈ z.head?, ¬ IsTail b) (hj : j < u.length) :
    String.utf8EncodeChar c <+: (u ++ z).drop j ↔ String.utf8EncodeChar c <+: u.drop j := by
  refine ⟨prefix_drop_of_append hz hj, fun h => ?_⟩
  rw [List.drop_append_of_le_length (Nat.le_of_lt hj)]
  exact h.trans (List.prefix_append _ _)

theorem isStray_append_left (hz : ∀ b ∈ z.head?, ¬ IsTail b) (hi : i < u.length) :
    IsStray (u ++ z) i ↔ IsStray u i := by
  constructor
  · rintro ⟨-, houtside⟩
    refine ⟨hi, fun j c henc => houtside j c ?_⟩
    by_cases hj : j < u.length
    · exact (prefix_drop_append_iff hz hj).2 henc
    · -- nothing is left there for an encoding
      obtain ⟨lead, more, hcode, -⟩ := exists_utf8EncodeChar_eq c
      rw [List.drop_eq_nil_of_le (Nat.not_lt.1 hj), hcode] at henc
      exact absurd (List.prefix_nil.1 henc) (List.cons_ne_nil _ _)
  · rintro ⟨-, houtside⟩
    refine ⟨by rw [List.length_append]; omega, fun j c henc => ?_⟩
    by_cases hj : j < u.length
    · exact houtside j c (prefix_drop_of_append hz hj henc)
    · exact .inl (by omega)

theorem isStray_append_right (hz : ∀ b ∈ z.head?, ¬ IsTail b) :
    IsStray (u ++ z) (u.length + i) ↔ IsStray z i := by
  constructor
  · rintro ⟨hlt, houtside⟩
    rw [List.length_append] at hlt
    refine ⟨by omega, fun j c henc => ?_⟩
    have := houtside (u.length + j) c (by rwa [List.drop_length_add_append])
    omega
  · rintro ⟨hlt, houtside⟩
    refine ⟨by rw [List.length_append]; omega, fun j c henc => ?_⟩
    by_cases hj : j < u.length
    · -- an encoding that starts before ends before
      have hle := (prefix_drop_of_append hz hj henc).length_le
      rw [String.length_utf8EncodeChar, List.length_drop] at hle
      omega
    · obtain ⟨j', rfl⟩ := Nat.exists_eq_add_of_le (Nat.not_lt.1 hj)
      rw [List.drop_length_add_append] at henc
      have := houtside j' c henc
      omega

theorem isUtf8_append (hz : ∀ b ∈ z.head?, ¬ IsTail b) :
    (u ++ z).isUtf8 = true ↔ u.isUtf8 = true ∧ z.isUtf8 = true := by
  rw [isUtf8, isUtf8, isUtf8, runes_append hz, List.all_append, Bool.and_eq_true]

/-- A valid text has no stray bytes. -/
theorem not_isStray_of_isUtf8 (h : t.isUtf8 = true) : ¬ IsStray t i := by
  intro hstray
  obtain ⟨⟨front, hfront, -⟩, b, rs, hr⟩ := isStray_iff.1 hstray
  rw [isUtf8, hfront, hr, List.all_append, List.all_cons, isScalar, Bool.false_and,
    Bool.and_false] at h
  cases h

/-- Encodings start afresh. -/
theorem not_isTail_head_ofChars (cs : List Char) : ∀ b ∈ (ofChars cs).head?, ¬ IsTail b := by
  cases cs with
  | nil => simp [ofChars]
  | cons c cs =>
    obtain ⟨lead, more, henc, hlead, -⟩ := exists_utf8EncodeChar_eq c
    rw [ofChars, List.flatMap_cons, henc]
    rintro b hb
    cases hb
    exact hlead

/-! ### Spelled characters -/

theorem SpelledAt.le (h : t.SpelledAt cs i j) : i ≤ j := by
  induction cs generalizing i with
  | nil => exact Nat.le_of_eq h
  | cons c cs ih =>
    rcases h with ⟨-, h⟩ | ⟨-, -, h⟩ <;> have := ih h <;> omega

theorem spelledAt_append_iff :
    t.SpelledAt (cs ++ ds) i j ↔ ∃ k, t.SpelledAt cs i k ∧ t.SpelledAt ds k j := by
  induction cs generalizing i with
  | nil => simp [SpelledAt]
  | cons c cs ih =>
    simp only [List.cons_append, SpelledAt, ih]
    constructor
    · rintro (⟨henc, k, hcs, hds⟩ | ⟨hc, hstray, k, hcs, hds⟩)
      · exact ⟨k, .inl ⟨henc, hcs⟩, hds⟩
      · exact ⟨k, .inr ⟨hc, hstray, hcs⟩, hds⟩
    · rintro ⟨k, ⟨henc, hcs⟩ | ⟨hc, hstray, hcs⟩, hds⟩
      · exact .inl ⟨henc, k, hcs, hds⟩
      · exact .inr ⟨hc, hstray, k, hcs, hds⟩

/-- What is spelled in front of a fresh start does not depend on what follows. -/
theorem spelledAt_append_left (hz : ∀ b ∈ z.head?, ¬ IsTail b) (hj : j ≤ u.length) :
    (u ++ z).SpelledAt cs i j ↔ u.SpelledAt cs i j := by
  induction cs generalizing i with
  | nil => exact Iff.rfl
  | cons c cs ih =>
    have hsize := c.utf8Size_pos
    simp only [SpelledAt, ih]
    refine or_congr (and_congr_left fun hcs => ?_)
      (and_congr_right fun _ => and_congr_left fun hcs => ?_)
    · have := SpelledAt.le hcs
      exact prefix_drop_append_iff hz (by omega)
    · have := SpelledAt.le hcs
      exact isStray_append_left hz (by omega)

/-- What is spelled behind a fresh start does not depend on what stands before it. -/
theorem spelledAt_append_right (hz : ∀ b ∈ z.head?, ¬ IsTail b) :
    (u ++ z).SpelledAt cs (u.length + i) j ↔ ∃ j', j = u.length + j' ∧ z.SpelledAt cs i j' := by
  induction cs generalizing i with
  | nil => simp [SpelledAt, eq_comm]
  | cons c cs ih =>
    simp only [SpelledAt, Nat.add_assoc, ih, List.drop_length_add_append, isStray_append_right hz]
    constructor
    · rintro (⟨henc, j', rfl, hcs⟩ | ⟨hc, hstray, j', rfl, hcs⟩)
      · exact ⟨j', rfl, .inl ⟨henc, hcs⟩⟩
      · exact ⟨j', rfl, .inr ⟨hc, hstray, hcs⟩⟩
    · rintro ⟨j', rfl, ⟨henc, hcs⟩ | ⟨hc, hstray, hcs⟩⟩
      · exact .inl ⟨henc, j', rfl, hcs⟩
      · exact .inr ⟨hc, hstray, j', rfl, hcs⟩

/-- Where no stray byte is taken for the replacement character, spelled characters stand there. -/
theorem SpelledAt.prefix_drop (h : t.SpelledAt cs i j) (hplain : '�' ∈ cs → t.isUtf8 = true) :
    ofChars cs <+: t.drop i := by
  induction cs generalizing i with
  | nil => exact List.nil_prefix
  | cons c cs ih =>
    rcases h with ⟨⟨rest, hrest⟩, hcs⟩ | ⟨rfl, hstray, -⟩
    · have hdrop : t.drop (i + c.utf8Size) = rest := by
        rw [← List.drop_drop, ← hrest, ← String.length_utf8EncodeChar, List.drop_left]
      have htail := ih hcs fun hmem => hplain (List.mem_cons_of_mem _ hmem)
      rw [hdrop] at htail
      rw [← hrest]
      exact (List.prefix_append_right_inj _).2 htail
    · exact absurd hstray (not_isStray_of_isUtf8 (hplain List.mem_cons_self))

end Reroute.Text
