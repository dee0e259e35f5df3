import Mathlib.Data.List.TakeWhile
import Reroute.Landmarks
import Reroute.Proofs.Text.Ascii
import Reroute.Proofs.Text.Occurrence

/-!
# Signatures as bytes

Units are located by runes. If the declaration mark and the name of a unit are ASCII, the same
search can be read on bytes, where texts can be taken apart freely.

## Main definitions

* `Landmarks.brace` — the byte that opens a body
* `Landmarks.bodyText?` — the text behind the first signature

## Main results

* `Landmarks.bodyRunes?_runes` — the search on runes is the search on bytes
* `Landmarks.locate_eq` — the span of a unit by the search on bytes
-/

namespace Reroute

namespace Landmarks

open Text

variable {w t x y : Text}

/-- The opening brace. -/
def brace : UInt8 := byte '\x7b'

/-- The text after the first opening brace. -/
def afterBrace? (t : Text) : Option Text :=
  match t.dropWhile (· ≠ brace) with
  | [] => none
  | _ :: body => some body

/-- The text after the first opening brace, if something stands before it. -/
def enterText? : Text → Option Text
  | [] => none
  | b :: rest => if b = brace then none else afterBrace? rest

/-- The text after the first signature that starts with a pattern. -/
def bodyText? (pattern : Text) : Text → Option Text
  | [] => none
  | b :: rest =>
    match if startsWith (b :: rest) pattern then enterText? ((b :: rest).drop pattern.length)
      else none with
    | some body => some body
    | none => bodyText? pattern rest

/-! ### The first brace -/

private theorem ne_brace_of_mem (h : brace ∉ x) : ∀ b ∈ x, decide (b ≠ brace) = true := by
  intro b hb
  rw [decide_eq_true_iff]
  rintro rfl
  exact h hb

theorem afterBrace?_of_not_mem (h : brace ∉ t) : afterBrace? t = none := by
  rw [afterBrace?, List.dropWhile_eq_nil_iff.2 (ne_brace_of_mem h)]

theorem afterBrace?_append (h : brace ∉ x) : afterBrace? (x ++ y) = afterBrace? y := by
  rw [afterBrace?, List.dropWhile_append_of_pos (ne_brace_of_mem h), afterBrace?]

@[simp]
theorem afterBrace?_brace : afterBrace? (brace :: y) = some y := by
  simp [afterBrace?]

@[simp]
theorem enterText?_brace : enterText? (brace :: y) = none := by
  simp [enterText?]

/-- A body can be entered unless the brace comes at once. -/
theorem enterText?_eq (h : ∀ y, t ≠ brace :: y) : enterText? t = afterBrace? t := by
  cases t with
  | nil => rfl
  | cons b rest =>
    have hb : b ≠ brace := by
      rintro rfl
      exact h rest rfl
    have hskip : afterBrace? ([b] ++ rest) = afterBrace? rest :=
      afterBrace?_append (by simpa using hb.symm)
    rw [enterText?, if_neg hb, ← hskip, List.singleton_append]

/-! ### Skipping -/

/-- A signature starts with the first byte or later. -/
theorem bodyText?_eq_or (h : t ≠ []) :
    bodyText? w t =
      (if startsWith t w then enterText? (t.drop w.length) else none).or (bodyText? w t.tail) := by
  obtain ⟨b, rest, rfl⟩ := List.exists_cons_of_ne_nil h
  rw [bodyText?, List.tail_cons]
  cases if startsWith (b :: rest) w then enterText? ((b :: rest).drop w.length) else none <;> rfl

/-- Where no pattern starts, no signature starts. -/
theorem bodyText?_append (h : ∀ u v, x = u ++ v → v ≠ [] → ¬ w <+: v ++ y) :
    bodyText? w (x ++ y) = bodyText? w y := by
  induction x with
  | nil => rfl
  | cons b rest ih =>
    have hlead : startsWith (b :: (rest ++ y)) w = false := by
      rw [← Bool.not_eq_true, startsWith_iff]
      exact h [] (b :: rest) rfl (by simp)
    rw [List.cons_append, bodyText?_eq_or (by simp), hlead]
    refine ih fun u v huv hv => ?_
    exact h (b :: u) v (by rw [huv, List.cons_append]) hv

theorem bodyText?_eq_none (h : ¬ w <:+: t) : bodyText? w t = none := by
  have hskip := bodyText?_append (w := w) (x := t) (y := []) fun u v huv _ hpre => by
    rw [List.append_nil] at hpre
    exact h (huv ▸ List.infix_append_of_infix_right hpre.isInfix)
  rwa [List.append_nil] at hskip

/-! ### Runes and bytes -/

private theorem char_ne_asciiChar {r : Rune} {b : UInt8} (hr : 128 ≤ r.char.toNat)
    (hb : b.toNat < 128) : r.char ≠ asciiChar b := by
  intro h
  rw [h, toNat_asciiChar hb] at hr
  omega

/-- Reading an ASCII pattern from runes is reading it from bytes. -/
theorem consume_runes (hw : IsAscii w) (t : Text) :
    consume (w.map asciiChar) t.runes =
      if startsWith t w then some (runes (t.drop w.length)) else none := by
  induction w generalizing t with
  | nil => simp [consume, startsWith]
  | cons a w ih =>
    have ha : a.toNat < 128 := hw a List.mem_cons_self
    have hw' : IsAscii w := fun b hb => hw b (List.mem_cons_of_mem a hb)
    cases t with
    | nil => simp [consume, startsWith]
    | cons b rest =>
      by_cases hb : b.toNat < 128
      · rw [runes_cons_of_lt hb, List.map_cons, consume, ih hw']
        simp [Rune.char, asciiChar_inj hb ha, startsWith, List.isPrefixOf, eq_comm (a := a),
          ite_and]
      · -- neither the rune nor its first byte is what the pattern asks for
        obtain ⟨r, -, after, -, -, hr, -, hrunes⟩ := runes_cons_of_ge (Nat.not_lt.1 hb) rest
        have hab : a ≠ b := by
          rintro rfl
          exact hb ha
        rw [hrunes, List.map_cons, consume, if_neg (char_ne_asciiChar hr ha)]
        simp [startsWith, List.isPrefixOf, hab]

private theorem asciiChar_brace : asciiChar brace = '\x7b' := by decide

private theorem toNat_brace_lt : brace.toNat < 128 := by decide

private theorem asciiChar_eq_brace_iff {b : UInt8} (hb : b.toNat < 128) :
    asciiChar b = '\x7b' ↔ b = brace := by
  rw [← asciiChar_brace, asciiChar_inj hb toNat_brace_lt]

private theorem char_ne_brace {r : Rune} (hr : 128 ≤ r.char.toNat) : r.char ≠ '\x7b' :=
  asciiChar_brace ▸ char_ne_asciiChar hr toNat_brace_lt

private theorem brace_not_mem (h : ∀ b ∈ x, 128 ≤ b.toNat) : brace ∉ x := by
  intro hmem
  exact absurd (h brace hmem) (Nat.not_le.2 toNat_brace_lt)

private theorem dropWhile_runes (t : Text) :
    t.runes.dropWhile (·.char ≠ '\x7b') = runes (t.dropWhile (· ≠ brace)) := by
  induction t using rune_induction with
  | nil => simp
  | ascii b rest hb hrunes ih =>
    by_cases h : b = brace
    · subst h
      rw [List.dropWhile_cons, if_neg (by simp), hrunes, asciiChar_brace]
      simp [Rune.char]
    · rw [hrunes, List.dropWhile_cons, List.dropWhile_cons, ih]
      simp [Rune.char, asciiChar_eq_brace_iff hb, h]
  | other r b more after hb hmore hr _ hrunes ih =>
    -- the rune is dropped in one step, its bytes one by one
    have hskip : brace ∉ b :: more := brace_not_mem (List.forall_mem_cons.2 ⟨hb, hmore⟩)
    rw [hrunes, List.dropWhile_cons, if_pos (by simpa using char_ne_brace hr), ih,
      ← List.cons_append, List.dropWhile_append_of_pos (ne_brace_of_mem hskip)]

/-- Entering a body after a rune that is no brace. -/
private theorem enterBody_cons {r : Rune} (hr : r.char ≠ '\x7b') (rest : Text) :
    enterBody (r :: rest.runes) = (afterBrace? rest).map runes := by
  rw [enterBody, if_neg hr, dropWhile_runes, afterBrace?]
  cases hd : rest.dropWhile (· ≠ brace) with
  | nil => simp
  | cons b body =>
    have hb : b = brace := by
      have := List.head?_dropWhile_not (fun b : UInt8 => decide (b ≠ brace)) rest
      rw [hd] at this
      simpa using this
    rw [hb, runes_cons_of_lt toNat_brace_lt]
    rfl

theorem enterBody_runes (t : Text) : enterBody t.runes = (enterText? t).map runes := by
  induction t using rune_induction with
  | nil => simp [enterBody, enterText?]
  | ascii b rest hb hrunes _ =>
    rw [hrunes, enterText?]
    by_cases h : b = brace
    · rw [if_pos h, h, asciiChar_brace]
      rfl
    · have hchar : (Rune.scalar (asciiChar b)).char ≠ '\x7b' := by
        intro he
        exact h ((asciiChar_eq_brace_iff hb).1 he)
      rw [if_neg h, enterBody_cons hchar]
  | other r b more after hb hmore hr _ hrunes _ =>
    have hne : b ≠ brace := by
      rintro rfl
      exact absurd hb (Nat.not_le.2 toNat_brace_lt)
    rw [hrunes, enterBody_cons (char_ne_brace hr), enterText?, if_neg hne,
      afterBrace?_append (brace_not_mem hmore)]

/-- For an ASCII pattern, the search for a signature on runes is the search on bytes. -/
theorem bodyRunes?_runes (hw : IsAscii w) (hne : w ≠ []) (t : Text) :
    bodyRunes? (w.map asciiChar) t.runes = (bodyText? w t).map runes := by
  -- at a single place the two searches agree
  have hbind : ∀ t : Text, (consume (w.map asciiChar) t.runes).bind enterBody =
      (if startsWith t w then enterText? (t.drop w.length) else none).map runes := by
    intro t
    rw [consume_runes hw]
    split
    · rw [Option.bind_some, enterBody_runes]
    · rfl
  induction t using rune_induction with
  | nil => simp [bodyRunes?, bodyText?]
  | ascii b rest hb hrunes ih =>
    rw [hrunes, bodyRunes?, ← hrunes, hbind, bodyText?, ih]
    cases if startsWith (b :: rest) w then enterText? ((b :: rest).drop w.length) else none <;> rfl
  | other r b more after hb hmore hr _ hrunes ih =>
    -- no pattern starts inside of a rune that is not ASCII
    have hhigh : ∀ x ∈ b :: more, 128 ≤ x.toNat := List.forall_mem_cons.2 ⟨hb, hmore⟩
    have hskip : ∀ u v, b :: more = u ++ v → v ≠ [] → ¬ w <+: v ++ after := by
      intro u v huv hv hpre
      obtain ⟨a, w', rfl⟩ := List.exists_cons_of_ne_nil hne
      obtain ⟨c, v', rfl⟩ := List.exists_cons_of_ne_nil hv
      obtain ⟨rfl, -⟩ := List.cons_prefix_cons.1 hpre
      have hmem : a ∈ b :: more := huv ▸ List.mem_append_right u List.mem_cons_self
      exact absurd (hhigh a hmem) (Nat.not_le.2 (hw a List.mem_cons_self))
    have hno : startsWith (b :: (more ++ after)) w = false := by
      rw [← Bool.not_eq_true, startsWith_iff]
      exact hskip [] (b :: more) rfl (by simp)
    rw [hrunes, bodyRunes?, ← hrunes, hbind, hno, ← List.cons_append, bodyText?_append hskip]
    exact ih

/-! ### Locating a unit -/

/-- The widths of the runes of a text add up to its length. -/
theorem byteCount_runes (t : Text) : byteCount t.runes = t.length := by
  induction t using rune_induction with
  | nil => simp [byteCount]
  | ascii b rest hb hrunes ih =>
    have hwidth : (asciiChar b).utf8Size = 1 := by
      rw [Char.utf8Size_eq_one_iff, UInt32.le_iff_toNat_le]
      change (asciiChar b).toNat ≤ 127
      rw [toNat_asciiChar hb]
      omega
    rw [hrunes, byteCount, List.foldr_cons, ← byteCount, ih, Rune.width, hwidth, List.length_cons,
      Nat.add_comm]
  | other r b more after _ _ _ hwidth hrunes ih =>
    rw [hrunes, byteCount, List.foldr_cons, ← byteCount, ih, hwidth, List.length_cons,
      List.length_append]
    omega

private theorem runes_of_isAscii (h : IsAscii t) :
    t.runes = t.map fun b => Rune.scalar (asciiChar b) := by
  induction t with
  | nil => simp
  | cons b rest ih =>
    rw [runes_cons_of_lt (h b List.mem_cons_self), List.map_cons,
      ih fun a ha => h a (List.mem_cons_of_mem b ha)]

/-- ASCII is UTF-8. -/
theorem isUtf8_of_isAscii (h : IsAscii t) : t.isUtf8 = true := by
  rw [isUtf8, runes_of_isAscii h]
  simp [Rune.isScalar]

/-- For an ASCII declaration, the body of a unit starts where the search on bytes says. -/
theorem locate_eq {l : Landmarks} {name : Text} (hname : name ≠ [])
    (hascii : IsAscii (l.declaration ++ name)) (t : Text) :
    l.locate name t =
      match bodyText? (l.declaration ++ (name ++ "(")) t with
      | none => .error (.unitMissing name)
      | some body => .ok (l.spanFrom (t.length - body.length) t) := by
  -- the pattern of the search, as characters and as bytes
  have hchars : (l.declaration ++ name).chars ++ ['('] =
      (l.declaration ++ (name ++ "(")).map asciiChar := by
    rw [← List.append_assoc, List.map_append, chars, runes_of_isAscii hascii, List.map_map]
    rfl
  have hpattern : IsAscii (l.declaration ++ (name ++ "(")) := by
    rw [← List.append_assoc]
    intro b hb
    rcases List.mem_append.1 hb with hb | hb
    · exact hascii b hb
    · rw [List.mem_singleton.1 hb]
      decide
  rw [locate, if_neg (by simpa using hname), isUtf8_of_isAscii hascii, hchars,
    bodyRunes?_runes hpattern (by simp [hname])]
  cases hbody : bodyText? (l.declaration ++ (name ++ "(")) t with
  | none => rfl
  | some body => simp [byteCount_runes]

end Landmarks

end Reroute
