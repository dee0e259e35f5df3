import Mathlib.Data.List.Infix
import Reroute.Text.Rune

/-!
# Reading UTF-8

The first rune of a text is a code point just if the text starts with the encoding of that code
point. No encoding starts with a byte that goes on another one, so an encoding that stands anywhere
in a text is a rune of it, whatever comes before. A byte is a stray one just if it lies in no
encoding.

## Main definitions

* `Rune.IsTail` — the bytes by which encodings go on
* `Text.Boundary` — the offsets at which runes start
* `Text.IsStray` — the bytes that lie in no encoding

## Main results

* `Rune.scalar?_eq_some_iff` — reading a code point undoes its encoding
* `Text.runes_append` — texts are read apart where the second one does not go on an encoding
* `Text.isUtf8_iff` — valid texts are the encodings of characters
* `Text.boundary_of_prefix_drop` — an encoding is a rune of the text
* `Text.isStray_iff` — strays are the bytes in no encoding
-/

namespace Reroute

namespace Rune

theorem within_iff {lo hi b : UInt8} :
    within lo hi b = true ↔ lo.toNat ≤ b.toNat ∧ b.toNat ≤ hi.toNat := by
  rw [within, Bool.and_eq_true, decide_eq_true_iff, decide_eq_true_iff, UInt8.le_iff_toNat_le,
    UInt8.le_iff_toNat_le]

theorem toNat_ofNat {n : Nat} (h : n.isValidChar) : (Char.ofNat n).toNat = n := by
  rw [Char.ofNat, dif_pos h]
  rfl

/-- A byte by which an encoding goes on. -/
def IsTail (b : UInt8) : Prop := 128 ≤ b.toNat ∧ b.toNat < 192

/-! ### Encodings -/

private theorem toNat_ofNat_of_lt {n : Nat} (h : n < 256) : (UInt8.ofNat n).toNat = n := by
  simpa using h

/-- The encodings by their lengths, with the numbers that their bytes stand for. -/
theorem utf8EncodeChar_cases (c : Char) :
    (∃ a : UInt8, String.utf8EncodeChar c = [a] ∧ a.toNat = c.toNat ∧ c.toNat < 0x80) ∨
    (∃ a b : UInt8, String.utf8EncodeChar c = [a, b] ∧ a.toNat = c.toNat / 64 + 192 ∧
      b.toNat = c.toNat % 64 + 128 ∧ 0x80 ≤ c.toNat ∧ c.toNat < 0x800) ∨
    (∃ a b d : UInt8, String.utf8EncodeChar c = [a, b, d] ∧ a.toNat = c.toNat / 4096 + 224 ∧
      b.toNat = c.toNat / 64 % 64 + 128 ∧ d.toNat = c.toNat % 64 + 128 ∧ 0x800 ≤ c.toNat ∧
      c.toNat < 0x10000) ∨
    (∃ a b d e : UInt8, String.utf8EncodeChar c = [a, b, d, e] ∧
      a.toNat = c.toNat / 262144 + 240 ∧ b.toNat = c.toNat / 4096 % 64 + 128 ∧
      d.toNat = c.toNat / 64 % 64 + 128 ∧ e.toNat = c.toNat % 64 + 128 ∧ 0x10000 ≤ c.toNat) := by
  have hvalid : c.toNat.isValidChar := c.valid
  simp only [Nat.isValidChar] at hvalid
  have hval : c.val.toNat = c.toNat := rfl
  rw [String.utf8EncodeChar, hval]
  split_ifs with h₁ h₂ h₃
  · exact .inl ⟨_, rfl, toNat_ofNat_of_lt (by omega), by omega⟩
  · refine .inr (.inl ⟨_, _, rfl, ?_, toNat_ofNat_of_lt (by omega), by omega, by omega⟩)
    rw [toNat_ofNat_of_lt (by omega)]
    omega
  · refine .inr (.inr (.inl ⟨_, _, _, rfl, ?_, toNat_ofNat_of_lt (by omega),
      toNat_ofNat_of_lt (by omega), by omega, by omega⟩))
    rw [toNat_ofNat_of_lt (by omega)]
    omega
  · refine .inr (.inr (.inr ⟨_, _, _, _, rfl, ?_, toNat_ofNat_of_lt (by omega),
      toNat_ofNat_of_lt (by omega), toNat_ofNat_of_lt (by omega), by omega⟩))
    rw [toNat_ofNat_of_lt (by omega)]
    omega

/-- An encoding is one byte that starts it and some by which it goes on. -/
theorem exists_utf8EncodeChar_eq (c : Char) :
    ∃ lead more, String.utf8EncodeChar c = lead :: more ∧ ¬ IsTail lead ∧ ∀ b ∈ more, IsTail b := by
  have hvalid : c.toNat.isValidChar := c.valid
  simp only [Nat.isValidChar] at hvalid
  rcases utf8EncodeChar_cases c with ⟨a, henc, ha, _⟩ | ⟨a, b, henc, ha, hb, _⟩ |
    ⟨a, b, d, henc, ha, hb, hd, _⟩ | ⟨a, b, d, e, henc, ha, hb, hd, he, _⟩
  · exact ⟨a, [], henc, by rw [IsTail]; omega, by simp⟩
  all_goals
    refine ⟨a, _, henc, by rw [IsTail]; omega, ?_⟩
    simp only [List.forall_mem_cons, List.not_mem_nil, false_implies, implies_true, and_true,
      IsTail]
    omega

/-! ### Reading a code point -/

private theorem not_lt_of_le {a : UInt8} (h : 128 ≤ a.toNat) : ¬ a < 0x80 := by
  rw [UInt8.lt_iff_toNat_lt]
  exact Nat.not_lt.2 h

private theorem within_of_le {lo hi a : UInt8} (hlo : lo.toNat ≤ a.toNat)
    (hhi : a.toNat ≤ hi.toNat) : within lo hi a = true :=
  within_iff.2 ⟨hlo, hhi⟩

private theorem not_within_of_lt {lo hi a : UInt8} (h : hi.toNat < a.toNat) :
    ¬ within lo hi a = true := by
  rw [within_iff]
  omega

/-- The encoding of a code point is read. -/
theorem scalar?_of_eq_append {lead : UInt8} {rest after : Text} {c : Char}
    (h : lead :: rest = String.utf8EncodeChar c ++ after) :
    scalar? lead rest = some (c, after) := by
  have hvalid : c.toNat.isValidChar := c.valid
  simp only [Nat.isValidChar] at hvalid
  rcases utf8EncodeChar_cases c with ⟨a, henc, ha, hlt⟩ | ⟨a, b, henc, ha, hb, hlo, hhi⟩ |
    ⟨a, b, d, henc, ha, hb, hd, hlo, hhi⟩ | ⟨a, b, d, e, henc, ha, hb, hd, he, hlo⟩
  · obtain ⟨rfl, rfl⟩ : lead = a ∧ rest = after := by simpa [henc] using h
    have hascii : lead < 0x80 := UInt8.lt_iff_toNat_lt.2 (ha ▸ hlt)
    unfold scalar?
    rw [if_pos hascii, ha, Char.ofNat_toNat]
  · obtain ⟨rfl, rfl⟩ : lead = a ∧ rest = b :: after := by simpa [henc] using h
    have hb' : within 0x80 0xBF b = true := within_of_le (by simp; omega) (by simp; omega)
    have hn : lead.toNat % 32 * 64 + payload b = c.toNat := by
      rw [payload]
      omega
    rw [scalar?, if_neg (not_lt_of_le (by omega)),
      if_pos (within_of_le (by simp; omega) (by simp; omega)), if_pos hb', hn, Char.ofNat_toNat]
  · obtain ⟨rfl, rfl⟩ : lead = a ∧ rest = b :: d :: after := by simpa [henc] using h
    have hb' : within (if lead = 0xE0 then 0xA0 else 0x80) (if lead = 0xED then 0x9F else 0xBF) b =
        true := by
      simp only [within_iff, ← UInt8.toNat_inj, apply_ite UInt8.toNat, UInt8.reduceToNat]
      split_ifs <;> omega
    have hd' : within 0x80 0xBF d = true := within_of_le (by simp; omega) (by simp; omega)
    have hn : lead.toNat % 16 * 4096 + payload b * 64 + payload d = c.toNat := by
      rw [payload, payload]
      omega
    rw [scalar?, if_neg (not_lt_of_le (by omega)), if_neg (not_within_of_lt (by simp; omega)),
      if_pos (within_of_le (by simp; omega) (by simp; omega))]
    dsimp only
    rw [if_pos (by rw [hb', hd']; rfl), hn, Char.ofNat_toNat]
  · obtain ⟨rfl, rfl⟩ : lead = a ∧ rest = b :: d :: e :: after := by simpa [henc] using h
    have hb' : within (if lead = 0xF0 then 0x90 else 0x80) (if lead = 0xF4 then 0x8F else 0xBF) b =
        true := by
      simp only [within_iff, ← UInt8.toNat_inj, apply_ite UInt8.toNat, UInt8.reduceToNat]
      split_ifs <;> omega
    have hd' : within 0x80 0xBF d = true := within_of_le (by simp; omega) (by simp; omega)
    have he' : within 0x80 0xBF e = true := within_of_le (by simp; omega) (by simp; omega)
    have hn : lead.toNat % 8 * 262144 + payload b * 4096 + payload d * 64 + payload e =
        c.toNat := by
      rw [payload, payload, payload]
      omega
    rw [scalar?, if_neg (not_lt_of_le (by omega)), if_neg (not_within_of_lt (by simp; omega)),
      if_neg (not_within_of_lt (by simp; omega)),
      if_pos (within_of_le (by simp; omega) (by simp; omega))]
    dsimp only
    rw [if_pos (by rw [hb', hd', he']; rfl), hn, Char.ofNat_toNat]

private theorem ofNat_of_toNat_eq {a : UInt8} {n : Nat} (h : a.toNat = n) : UInt8.ofNat n = a := by
  rw [← h, UInt8.ofNat_toNat]

/-! The ranges of the bytes of an encoding bound the code point that they make up. -/

private theorem bounds_two {lead b : UInt8} (hlead : within 0xC2 0xDF lead = true) :
    0x80 ≤ lead.toNat % 32 * 64 + payload b ∧ lead.toNat % 32 * 64 + payload b ≤ 0x7FF := by
  simp only [within_iff, UInt8.reduceToNat] at hlead
  simp only [payload]
  omega

private theorem bounds_three {lead b d : UInt8} (hlead : within 0xE0 0xEF lead = true)
    (hb : within (if lead = 0xE0 then 0xA0 else 0x80) (if lead = 0xED then 0x9F else 0xBF) b =
      true) :
    let n := lead.toNat % 16 * 4096 + payload b * 64 + payload d
    128 ≤ b.toNat ∧ b.toNat < 192 ∧ n.isValidChar ∧ 0x800 ≤ n ∧ n ≤ 0xFFFF := by
  simp only [within_iff, ← UInt8.toNat_inj, apply_ite UInt8.toNat, UInt8.reduceToNat]
    at hlead hb
  simp only [Nat.isValidChar, payload]
  split_ifs at hb <;> omega

private theorem bounds_four {lead b d e : UInt8} (hlead : within 0xF0 0xF4 lead = true)
    (hb : within (if lead = 0xF0 then 0x90 else 0x80) (if lead = 0xF4 then 0x8F else 0xBF) b =
      true) :
    let n := lead.toNat % 8 * 262144 + payload b * 4096 + payload d * 64 + payload e
    128 ≤ b.toNat ∧ b.toNat < 192 ∧ n.isValidChar ∧ 0x10000 ≤ n := by
  simp only [within_iff, ← UInt8.toNat_inj, apply_ite UInt8.toNat, UInt8.reduceToNat]
    at hlead hb
  simp only [Nat.isValidChar, payload]
  split_ifs at hb <;> omega

/-- What is read is the encoding of a code point. -/
theorem eq_append_of_scalar? {lead : UInt8} {rest after : Text} {c : Char}
    (h : scalar? lead rest = some (c, after)) :
    lead :: rest = String.utf8EncodeChar c ++ after := by
  have hval : c.val.toNat = c.toNat := rfl
  rw [String.utf8EncodeChar, hval]
  unfold scalar? at h
  -- one case for each length of an encoding
  split at h
  · rename_i hlead
    have hlt : lead.toNat < 128 := UInt8.lt_iff_toNat_lt.1 hlead
    obtain ⟨hc, rfl⟩ : Char.ofNat lead.toNat = c ∧ rest = after := by simpa using h
    have hn : c.toNat = lead.toNat := by rw [← hc, toNat_ofNat (.inl (by omega))]
    rw [hn, if_pos (by omega), UInt8.ofNat_toNat, List.singleton_append]
  split at h
  · rename_i hlead
    split at h
    · rename_i b tail
      obtain ⟨hb, hpair⟩ := Option.ite_none_right_eq_some.1 h
      obtain ⟨hc, rfl⟩ : _ = c ∧ tail = after := by simpa using hpair
      obtain ⟨hlo, hhi⟩ := bounds_two (b := b) hlead
      have hn : c.toNat = lead.toNat % 32 * 64 + payload b := by
        rw [← hc, toNat_ofNat (.inl (by omega))]
      rw [payload] at hn
      simp only [within_iff, UInt8.reduceToNat] at hlead hb
      rw [if_neg (by omega), if_pos (by omega), ofNat_of_toNat_eq (a := lead) (by omega),
        ofNat_of_toNat_eq (a := b) (by omega)]
      rfl
    · cases h
  split at h
  · rename_i hlead
    split at h
    · rename_i b d tail
      obtain ⟨hbd, hpair⟩ := Option.ite_none_right_eq_some.1 h
      rw [Bool.and_eq_true] at hbd
      obtain ⟨hc, rfl⟩ : _ = c ∧ tail = after := by simpa using hpair
      obtain ⟨hb, hb', hvalid, hlo, hhi⟩ := bounds_three (d := d) hlead hbd.1
      have hn := toNat_ofNat hvalid
      have hd := hbd.2
      rw [hc, payload, payload] at hn
      simp only [within_iff, UInt8.reduceToNat] at hlead hd
      rw [payload, payload] at hlo hhi
      rw [if_neg (by omega), if_neg (by omega), if_pos (by omega),
        ofNat_of_toNat_eq (a := lead) (by omega), ofNat_of_toNat_eq (a := b) (by omega),
        ofNat_of_toNat_eq (a := d) (by omega)]
      rfl
    · cases h
  split at h
  · rename_i hlead
    split at h
    · rename_i b d e tail
      obtain ⟨hbde, hpair⟩ := Option.ite_none_right_eq_some.1 h
      rw [Bool.and_eq_true, Bool.and_eq_true] at hbde
      obtain ⟨hc, rfl⟩ : _ = c ∧ tail = after := by simpa using hpair
      obtain ⟨hb, hb', hvalid, hlo⟩ := bounds_four (d := d) (e := e) hlead hbde.1.1
      have hn := toNat_ofNat hvalid
      obtain ⟨⟨-, hd⟩, he⟩ := hbde
      rw [hc, payload, payload, payload] at hn
      simp only [within_iff, UInt8.reduceToNat] at hlead hd he
      rw [payload, payload, payload] at hlo
      rw [if_neg (by omega), if_neg (by omega), if_neg (by omega),
        ofNat_of_toNat_eq (a := lead) (by omega), ofNat_of_toNat_eq (a := b) (by omega),
        ofNat_of_toNat_eq (a := d) (by omega), ofNat_of_toNat_eq (a := e) (by omega)]
      rfl
    · cases h
  · cases h

/-- Reading a code point undoes its encoding. -/
theorem scalar?_eq_some_iff {lead : UInt8} {rest after : Text} {c : Char} :
    scalar? lead rest = some (c, after) ↔ lead :: rest = String.utf8EncodeChar c ++ after :=
  ⟨eq_append_of_scalar?, scalar?_of_eq_append⟩

theorem length_bytes (r : Rune) : r.bytes.length = r.width := by
  cases r with
  | scalar c => exact String.length_utf8EncodeChar c
  | stray b => rfl

theorem width_pos (r : Rune) : 0 < r.width := by
  cases r with
  | scalar c => exact c.utf8Size_pos
  | stray b => exact Nat.one_pos

end Rune

namespace Text

open Rune (IsTail)

variable {t x y : Text} {r : Rune} {rs : List Rune} {c : Char}

/-! ### Runes -/

@[simp]
theorem runes_nil : runes [] = [] := by
  rw [runes]
  rfl

private theorem runes_of_next? {rest : Text} (h : Rune.next? t = some (r, rest)) :
    runes t = r :: runes rest := by
  rw [runes]
  split
  · rename_i hnone
    rw [h] at hnone
    exact absurd hnone (by simp)
  · rename_i hsome
    rw [h] at hsome
    obtain ⟨rfl, rfl⟩ : r = _ ∧ rest = _ := by simpa using hsome
    rfl

/-- A text that starts with an encoding starts with that code point. -/
@[simp]
theorem runes_encode_append (c : Char) (t : Text) :
    runes (String.utf8EncodeChar c ++ t) = .scalar c :: runes t := by
  obtain ⟨lead, more, henc, -⟩ := Rune.exists_utf8EncodeChar_eq c
  have hread : Rune.scalar? lead (more ++ t) = some (c, t) :=
    Rune.scalar?_of_eq_append (by rw [henc, List.cons_append])
  rw [henc, List.cons_append]
  exact runes_of_next? (by rw [Rune.next?, hread])

/-- A byte with which no encoding starts is a stray one. -/
theorem runes_cons_of_none {b : UInt8} {rest : Text} (h : Rune.scalar? b rest = none) :
    runes (b :: rest) = .stray b :: runes rest :=
  runes_of_next? (by rw [Rune.next?, h])

/-- Texts are read from encoding to encoding, past the strays between them. -/
theorem encoding_induction {P : Text → Prop} (nil : P [])
    (scalar : ∀ c rest, P rest → P (String.utf8EncodeChar c ++ rest))
    (stray : ∀ b rest, Rune.scalar? b rest = none → P rest → P (b :: rest)) (t : Text) : P t := by
  induction h : t.length using Nat.strong_induction_on generalizing t with
  | h n ih =>
    cases t with
    | nil => exact nil
    | cons b rest =>
      cases hread : Rune.scalar? b rest with
      | none => exact stray b rest hread (ih rest.length (by simp [← h]) rest rfl)
      | some pair =>
        have hle := Rune.length_le_of_scalar? hread
        rw [Rune.eq_append_of_scalar? hread]
        refine scalar pair.1 pair.2 (ih pair.2.length ?_ pair.2 rfl)
        rw [← h, List.length_cons]
        omega

/-- The first rune takes its bytes from the text. -/
theorem eq_append_of_runes (h : runes t = r :: rs) :
    ∃ rest, t = r.bytes ++ rest ∧ rs = runes rest := by
  cases t using encoding_induction with
  | nil => simp at h
  | scalar c rest =>
    rw [runes_encode_append] at h
    obtain ⟨rfl, rfl⟩ := List.cons.inj h
    exact ⟨rest, rfl, rfl⟩
  | stray b rest hb =>
    rw [runes_cons_of_none hb] at h
    obtain ⟨rfl, rfl⟩ := List.cons.inj h
    exact ⟨rest, rfl, rfl⟩

/-- Texts are read apart where the second one does not go on an encoding. -/
theorem runes_append (h : ∀ b ∈ y.head?, ¬ IsTail b) : runes (x ++ y) = runes x ++ runes y := by
  induction x using encoding_induction with
  | nil => simp
  | scalar c rest ih =>
    rw [List.append_assoc, runes_encode_append, runes_encode_append, ih, List.cons_append]
  | stray b rest hb ih =>
    -- an encoding that starts in the first text would end there, or it would go on in the second
    have hstill : Rune.scalar? b (rest ++ y) = none := by
      by_contra hread
      obtain ⟨⟨c, after⟩, hread⟩ := Option.ne_none_iff_exists'.1 hread
      have heq := Rune.eq_append_of_scalar? hread
      rw [← List.cons_append, List.append_eq_append_iff] at heq
      rcases heq with ⟨z, henc, rfl⟩ | ⟨z, hx, -⟩
      · obtain ⟨lead, more, henc', -, hmore⟩ := Rune.exists_utf8EncodeChar_eq c
        cases z with
        | nil =>
          rw [List.append_nil] at henc
          rw [Rune.scalar?_of_eq_append (henc.symm.trans (List.append_nil _).symm)] at hb
          cases hb
        | cons d z =>
          rw [henc, List.cons_append] at henc'
          obtain ⟨-, rfl⟩ := List.cons.inj henc'
          exact h d rfl (hmore d (by simp))
      · rw [Rune.scalar?_of_eq_append hx] at hb
        cases hb
    rw [List.cons_append, runes_cons_of_none hstill, runes_cons_of_none hb, ih, List.cons_append]

/-! ### Valid texts -/

theorem runes_ofChars (cs : List Char) : runes (ofChars cs) = cs.map .scalar := by
  induction cs with
  | nil => exact runes_nil
  | cons c cs ih =>
    rw [ofChars, List.flatMap_cons, runes_encode_append, ← ofChars, ih, List.map_cons]

@[simp]
theorem chars_ofChars (cs : List Char) : chars (ofChars cs) = cs := by
  rw [chars, runes_ofChars, List.map_map]
  exact List.map_id _

theorem ofChars_append (cs ds : List Char) : ofChars (cs ++ ds) = ofChars cs ++ ofChars ds :=
  List.flatMap_append

/-- The valid texts are the encodings of characters. -/
theorem isUtf8_iff : t.isUtf8 = true ↔ ∃ cs, t = ofChars cs := by
  constructor
  · intro h
    induction t using encoding_induction with
    | nil => exact ⟨[], rfl⟩
    | scalar c rest ih =>
      rw [isUtf8, runes_encode_append, List.all_cons, Bool.and_eq_true] at h
      obtain ⟨cs, rfl⟩ := ih h.2
      exact ⟨c :: cs, rfl⟩
    | stray b rest hb _ =>
      rw [isUtf8, runes_cons_of_none hb, List.all_cons, Rune.isScalar, Bool.false_and] at h
      cases h
  · rintro ⟨cs, rfl⟩
    rw [isUtf8, runes_ofChars, List.all_map]
    exact List.all_eq_true.2 fun _ _ => rfl

/-! ### Where runes start -/

/-- A rune starts at an offset, or the text ends there. -/
def Boundary (t : Text) (i : Nat) : Prop :=
  ∃ front, runes t = front ++ runes (t.drop i) ∧ (ofRunes front).length = i

theorem boundary_zero (t : Text) : Boundary t 0 := ⟨[], rfl, rfl⟩

theorem ofRunes_append (rs rs' : List Rune) : ofRunes (rs ++ rs') = ofRunes rs ++ ofRunes rs' :=
  List.flatMap_append

theorem ofRunes_runes (t : Text) : ofRunes (runes t) = t := by
  induction t using encoding_induction with
  | nil => simp [ofRunes]
  | scalar c rest ih => rw [runes_encode_append, ofRunes, List.flatMap_cons, ← ofRunes, ih]; rfl
  | stray b rest hb ih => rw [runes_cons_of_none hb, ofRunes, List.flatMap_cons, ← ofRunes, ih]; rfl

/-- Behind a rune the next one starts. -/
theorem Boundary.next {i : Nat} (h : Boundary t i) (hr : runes (t.drop i) = r :: rs) :
    Boundary t (i + r.width) ∧ runes (t.drop (i + r.width)) = rs := by
  obtain ⟨front, hfront, hlength⟩ := h
  obtain ⟨rest, hrest, rfl⟩ := eq_append_of_runes hr
  have hdrop : t.drop (i + r.width) = rest := by
    rw [← List.drop_drop, hrest, ← r.length_bytes, List.drop_left]
  refine ⟨⟨front ++ [r], ?_, ?_⟩, by rw [hdrop]⟩
  · rw [hfront, hr, hdrop, List.append_assoc, List.singleton_append]
  · rw [ofRunes_append, List.length_append, hlength, ofRunes, List.flatMap_singleton,
      r.length_bytes]

/-- An encoding that stands in a text is a rune of it. -/
theorem boundary_of_prefix_drop {i : Nat} (h : String.utf8EncodeChar c <+: t.drop i) :
    Boundary t i ∧ ∃ rs, runes (t.drop i) = .scalar c :: rs := by
  obtain ⟨rest, hrest⟩ := h
  obtain ⟨lead, more, henc, hlead, -⟩ := Rune.exists_utf8EncodeChar_eq c
  have hfresh : ∀ b ∈ (t.drop i).head?, ¬ IsTail b := by
    rw [← hrest, henc]
    intro b hb
    cases hb
    exact hlead
  have hle : i ≤ t.length := by
    by_contra hlt
    rw [List.drop_eq_nil_of_le (by omega), henc] at hrest
    cases hrest
  refine ⟨⟨runes (t.take i), ?_, ?_⟩, runes rest, ?_⟩
  · rw [← runes_append hfresh, List.take_append_drop]
  · rw [ofRunes_runes, List.length_take, Nat.min_eq_left hle]
  · rw [← hrest, runes_encode_append]

/-- No rune starts inside of another one. -/
theorem Boundary.le_of_lt {i j : Nat} (hi : Boundary t i) (hj : Boundary t j) (hlt : i < j)
    (hr : runes (t.drop i) = r :: rs) : i + r.width ≤ j := by
  obtain ⟨front, hfront, rfl⟩ := hi
  obtain ⟨front', hfront', rfl⟩ := hj
  rw [hr] at hfront
  have heq : front ++ r :: rs = front' ++ runes (t.drop (ofRunes front').length) :=
    hfront.symm.trans hfront'
  rw [List.append_eq_append_iff] at heq
  rcases heq with ⟨z, rfl, hz⟩ | ⟨z, rfl, -⟩
  · cases z with
    | nil => simp at hlt
    | cons r' z =>
      obtain ⟨rfl, -⟩ := List.cons.inj hz
      rw [ofRunes_append, List.length_append, ofRunes, ofRunes, List.flatMap_cons,
        List.length_append, r.length_bytes]
      omega
  · rw [ofRunes_append, List.length_append] at hlt
    omega

/-! ### Stray bytes -/

/-- A byte that lies in no encoding. -/
def IsStray (t : Text) (i : Nat) : Prop :=
  i < t.length ∧ ∀ j c, String.utf8EncodeChar c <+: t.drop j → i < j ∨ j + c.utf8Size ≤ i

/-- Every byte lies in a rune. -/
theorem exists_boundary_le {i : Nat} (hi : i < t.length) :
    ∃ j r rs, Boundary t j ∧ runes (t.drop j) = r :: rs ∧ j ≤ i ∧ i < j + r.width := by
  -- from rune to rune, until the next one starts behind the byte
  have hwalk : ∀ j, Boundary t j → j ≤ i →
      ∃ j' r rs, Boundary t j' ∧ runes (t.drop j') = r :: rs ∧ j' ≤ i ∧ i < j' + r.width := by
    intro j
    induction hn : i - j using Nat.strong_induction_on generalizing j with
    | h n ih =>
      intro hj hle
      cases hr : runes (t.drop j) with
      | nil =>
        have hdrop := ofRunes_runes (t.drop j)
        rw [hr] at hdrop
        have := List.drop_eq_nil_iff.1 hdrop.symm
        omega
      | cons r rs =>
        by_cases hlt : i < j + r.width
        · exact ⟨j, r, rs, hj, hr, hle, hlt⟩
        · have hpos := r.width_pos
          exact ih (i - (j + r.width)) (by omega) _ rfl (hj.next hr).1 (by omega)
  exact hwalk 0 (boundary_zero t) (Nat.zero_le i)

theorem isStray_iff {i : Nat} :
    IsStray t i ↔ Boundary t i ∧ ∃ b rs, runes (t.drop i) = .stray b :: rs := by
  constructor
  · rintro ⟨hi, houtside⟩
    obtain ⟨j, r, rs, hj, hr, hle, hlt⟩ := exists_boundary_le hi
    cases r with
    | scalar c =>
      obtain ⟨rest, hrest, -⟩ := eq_append_of_runes hr
      have := houtside j c ⟨rest, hrest.symm⟩
      rw [Rune.width] at hlt
      omega
    | stray b =>
      rw [Rune.width] at hlt
      obtain rfl : j = i := by omega
      exact ⟨hj, b, rs, hr⟩
  · rintro ⟨hi, b, rs, hr⟩
    refine ⟨?_, fun j c henc => ?_⟩
    · obtain ⟨rest, hrest, -⟩ := eq_append_of_runes hr
      have hlength := congrArg List.length hrest
      rw [List.length_drop, List.length_append, Rune.length_bytes, Rune.width] at hlength
      omega
    · obtain ⟨hj, rs', hr'⟩ := boundary_of_prefix_drop henc
      rcases Nat.lt_trichotomy i j with hlt | rfl | hlt
      · exact .inl hlt
      · rw [hr] at hr'
        cases hr'
      · exact .inr (hj.le_of_lt hi hlt hr')

end Text

end Reroute
