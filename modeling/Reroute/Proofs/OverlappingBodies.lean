import Reroute.Proofs.SeparateBodies

/-!
# Bodies that overlap

A mark with the replacement character is read at stray bytes as well. There a unit is declared
without a mark that would end the body before it, so the body of the one unit comes to lie inside of
the body of the other one. Every such mark has a text in which this happens, and a mark without the
replacement character has none.

## Main definitions

* `Text.scramble` — characters with stray bytes for the replacement character
* `Landmarks.outer`, `Landmarks.inner` — a unit with another one in its body

## Main results

* `Landmarks.foundAt_outer`, `Landmarks.foundAt_inner` — what is found of the two units
* `Landmarks.exists_overlap` — a mark with the replacement character lets bodies overlap
* `Landmarks.separate_iff` — so the mark keeps bodies apart just if it has none
* `Landmarks.attempt?_overlaps` — two bodies that overlap
-/

namespace Reroute

open Text Rune

namespace Text

theorem runes_ofChars_append (cs : List Char) (z : Text) :
    runes (ofChars cs ++ z) = cs.map .scalar ++ runes z := by
  induction cs with
  | nil => rfl
  | cons c cs ih =>
    rw [ofChars, List.flatMap_cons, ← ofChars, List.append_assoc, runes_encode_append, ih]
    rfl

/-- Characters with a stray byte in the place of each replacement character. -/
def scramble (cs : List Char) : Text :=
  cs.flatMap fun c => if c = '�' then [0xFF] else String.utf8EncodeChar c

theorem runes_scramble_append (cs : List Char) (z : Text) :
    runes (scramble cs ++ z) =
      cs.map (fun c => if c = '�' then .stray 0xFF else .scalar c) ++ runes z := by
  induction cs with
  | nil => rfl
  | cons c cs ih =>
    rw [scramble, List.flatMap_cons, ← scramble, List.append_assoc, List.map_cons, List.cons_append,
      ← ih]
    split
    · exact runes_cons_of_none rfl
    · exact runes_encode_append c _

end Text

namespace Landmarks

variable {l : Landmarks} {pattern : List Char} {t : Text} {c start : Nat}

/-- Reading a pattern takes runes from the front that are seen as its characters. -/
theorem consume_eq_some_iff {cs : List Char} {rs rest : List Rune} :
    consume cs rs = some rest ↔ ∃ front, rs = front ++ rest ∧ front.map Rune.char = cs := by
  induction cs generalizing rs with
  | nil => simp [consume]
  | cons c cs ih =>
    cases rs with
    | nil => simp [consume]
    | cons r rs =>
      rw [consume]
      constructor
      · intro h
        split at h
        · rename_i hc
          obtain ⟨front, rfl, rfl⟩ := ih.1 h
          exact ⟨r :: front, rfl, by rw [List.map_cons, hc]⟩
        · cases h
      · rintro ⟨front, hfront, hchars⟩
        obtain ⟨r', front, rfl, rfl, rfl⟩ := List.map_eq_cons_iff.1 hchars
        obtain ⟨rfl, rfl⟩ := List.cons.inj hfront
        rw [if_pos rfl]
        exact ih.2 ⟨front, rfl, rfl⟩

/-- A signature stands where a reader sees one. -/
theorem exists_signatureAt_of_runes {i : Nat} (front rest : List Rune) (after : Text)
    (hi : Boundary t i) (hrunes : runes (t.drop i) = front ++ rest)
    (henter : enterBody rest = some (runes after)) :
    ∃ start, SignatureAt (front.map Rune.char) t i start ∧ t.drop start = after := by
  have hconsume := consume_eq_some_iff.2 ⟨front, hrunes, rfl⟩
  obtain ⟨start, hsignature, hafter⟩ := (bind_enterBody_eq_some_iff hi).1
    ((congrArg (Option.bind · enterBody) hconsume).trans henter)
  refine ⟨start, hsignature, ?_⟩
  rw [← ofRunes_runes (t.drop start), ← hafter, ofRunes_runes]

/-- The pattern of a signature is what a reader sees somewhere. -/
theorem SignatureAt.infix_chars (hpattern : pattern ≠ []) (h : SignatureAt pattern t c start) :
    pattern <:+: t.chars := by
  obtain ⟨⟨before, hbefore, -⟩, -⟩ := h.exists_rune hpattern
  obtain ⟨paren, -, -, hspelled, -⟩ := h
  obtain ⟨hi, -⟩ := exists_rune_of_spelledAt hpattern hspelled
  obtain ⟨front, hfront, rfl⟩ :=
    consume_eq_some_iff.1 ((consume_drop_eq_some_iff hi).2 ⟨paren, hspelled, rfl⟩)
  rw [chars, hbefore, hfront, List.map_append, List.map_append]
  exact ⟨_, _, List.append_assoc _ _ _⟩

/-- A mark with the replacement character does not stand where only stray bytes are read as it. -/
theorem not_prefix_drop_of_scramble {ms cs : List Char} (hms : '�' ∈ ms) (hcs : '�' ∉ cs)
    (k : Nat) : ¬ ofChars ms <+: (scramble ms ++ ofChars cs).drop k := by
  intro h
  obtain ⟨p, q, rfl⟩ := List.append_of_mem hms
  have hcode : String.utf8EncodeChar '�' <+: (scramble (p ++ '�' :: q) ++ ofChars cs).drop
      (k + (ofChars p).length) := by
    obtain ⟨rest, hrest⟩ := h
    rw [← List.drop_drop, ← hrest, ofChars_append, List.append_assoc, List.drop_left]
    exact ⟨ofChars q ++ rest, by rw [← List.append_assoc]; rfl⟩
  obtain ⟨⟨front, hfront, -⟩, rs, hrs⟩ := boundary_of_prefix_drop hcode
  have hmem : .scalar '�' ∈ runes (scramble (p ++ '�' :: q) ++ ofChars cs) := by
    rw [hfront, hrs]
    exact List.mem_append_right _ List.mem_cons_self
  rw [runes_scramble_append, runes_ofChars, List.mem_append, List.mem_map, List.mem_map] at hmem
  rcases hmem with ⟨c, -, hc⟩ | ⟨c, hc, heq⟩
  · split at hc
    · cases hc
    · rename_i hne
      exact hne (Rune.scalar.inj hc)
  · exact hcs (Rune.scalar.inj heq ▸ hc)

/-- What stands before a unit that is nested in another one, up to the brace of the outer unit. -/
def outer (ms : List Char) : Text := ofChars (ms ++ ['a', '(', 'x', ')'])

/-- A unit whose mark is only read at stray bytes. -/
def inner (ms : List Char) : Text := scramble ms ++ ofChars ['b', '(', 'x', ')', '\x7b', 'z']

section Overlap

variable {ms : List Char}

theorem outer_append_brace :
    outer ms ++ [brace] = ofChars (ms ++ ['a', '(', 'x', ')', '\x7b']) := by
  rw [outer, ofChars_append, ofChars_append, List.append_assoc]
  rfl

theorem drop_outer : (outer ms ++ brace :: inner ms).drop ((outer ms).length + 1) = inner ms := by
  rw [List.drop_length_add_append, List.drop_one, List.tail_cons]

theorem runes_nested :
    runes (outer ms ++ brace :: inner ms) =
      (ms ++ ['a', '(', 'x', ')', '\x7b']).map .scalar ++ runes (inner ms) := by
  rw [← runes_ofChars_append, ← outer_append_brace, List.append_assoc, List.singleton_append]

/-- No body that starts in the outer one ends before the text. -/
theorem stopsAt_nested (hms : l.nextUnit = ofChars ms) (hmark : '�' ∈ ms)
    (hstart : (outer ms).length + 1 ≤ start) :
    l.StopsAt (outer ms ++ brace :: inner ms) start (outer ms ++ brace :: inner ms).length := by
  refine .inr ⟨rfl, .inr fun k hk hk' => ?_⟩
  obtain ⟨k, rfl⟩ := Nat.exists_eq_add_of_le (Nat.le_trans hstart hk)
  rw [← List.drop_drop, drop_outer, hms] at hk'
  exact not_prefix_drop_of_scramble hmark (by decide) k hk'

theorem foundAt_outer (hms : l.nextUnit = ofChars ms) (hmark : '�' ∈ ms) :
    l.FoundAt (ms ++ ['a', '(']) (outer ms ++ brace :: inner ms) 0 ((outer ms).length + 1)
      (outer ms ++ brace :: inner ms).length := by
  obtain ⟨start, hsignature, hdrop⟩ := exists_signatureAt_of_runes
    ((ms ++ ['a', '(']).map .scalar)
    ([.scalar 'x', .scalar ')', .scalar '\x7b'] ++ runes (inner ms)) (inner ms)
    (boundary_zero (outer ms ++ brace :: inner ms))
    (by rw [List.drop_zero, runes_nested]; simp) rfl
  obtain rfl : start = (outer ms).length + 1 := by
    have hlength := congrArg List.length hdrop
    have := hsignature.bounds
    simp only [List.length_drop, List.length_append, List.length_cons] at hlength this
    omega
  refine ⟨?_, fun k hk => absurd hk (Nat.not_lt_zero k), stopsAt_nested hms hmark (Nat.le_refl _)⟩
  simpa [Function.comp_def, Rune.char] using hsignature

theorem foundAt_inner (hms : l.nextUnit = ofChars ms) (hmark : '�' ∈ ms) (hbrace : '\x7b' ∉ ms) :
    l.FoundAt (ms ++ ['b', '(']) (outer ms ++ brace :: inner ms) ((outer ms).length + 1)
      ((outer ms ++ brace :: inner ms).length - 1) (outer ms ++ brace :: inner ms).length := by
  have hboundary : Boundary (outer ms ++ brace :: inner ms) ((outer ms).length + 1) := by
    refine ⟨_, by rw [drop_outer, runes_nested], ?_⟩
    rw [← runes_ofChars, ofRunes_runes, ← outer_append_brace]
    simp
  obtain ⟨start, hsignature, hdrop⟩ := exists_signatureAt_of_runes
    (ms.map (fun c => if c = '�' then .stray 0xFF else .scalar c) ++ ['b', '('].map .scalar)
    (['x', ')', '\x7b', 'z'].map .scalar) (ofChars ['z']) hboundary
    (by rw [drop_outer, inner, runes_scramble_append, runes_ofChars]; simp)
    (by rw [runes_ofChars]; rfl)
  have hchars : (ms.map fun c => if c = '�' then Rune.stray 0xFF else .scalar c).map Rune.char =
      ms := by
    rw [List.map_map]
    refine (List.map_congr_left fun c _ => ?_).trans (List.map_id ms)
    by_cases hc : c = '�' <;> simp [hc, Rune.char]
  rw [List.map_append, hchars] at hsignature
  change SignatureAt (ms ++ ['b', '(']) _ _ _ at hsignature
  have hfree : '\x7b' ∉ ms ++ ['b', '('] := by simp [hbrace]
  obtain rfl : start = (outer ms ++ brace :: inner ms).length - 1 := by
    have hone : (ofChars ['z']).length = 1 := by decide
    have hlength := congrArg List.length hdrop
    have := hsignature.bounds
    rw [List.length_drop, hone] at hlength
    omega
  refine ⟨hsignature, fun k hk start' hk' => ?_, stopsAt_nested hms hmark ?_⟩
  · -- before the brace there is one `b` less than in the pattern
    have hinfix := (hk'.append_brace hfree (by omega) []).2.infix_chars (by simp)
    rw [outer_append_brace, chars_ofChars] at hinfix
    have hcount := hinfix.sublist.count_le 'b'
    simp at hcount
  · have hlt := (hsignature.not_brace hfree).1
    omega

end Overlap

/-- With the replacement character in the mark, some bodies overlap. -/
theorem exists_overlap (hl : l.OneMark) (hvalid : l.nextUnit.isUtf8 = true)
    (hmark : '�' ∈ l.nextUnit.chars) :
    ∃ (t a b : Text) (A B : Span), a.isUtf8 = true ∧ brace ∉ a ∧ b.isUtf8 = true ∧ brace ∉ b ∧
      l.attempt? a t = some (.ok A) ∧ l.attempt? b t = some (.ok B) ∧
      ¬ (A = B ∨ A.Separate B) := by
  obtain ⟨ms, hms⟩ := isUtf8_iff.1 hvalid
  have hsignature? : ∀ name, l.signature? (ofChars name) = some (ms ++ name ++ ['(']) := by
    intro name
    have hopening : l.declaration ++ ofChars name = ofChars (ms ++ name) := by
      rw [hl.same, hms, ofChars_append]
    rw [signature?, hopening, if_pos (isUtf8_iff.2 ⟨_, rfl⟩), chars_ofChars]
  rw [hms, chars_ofChars] at hmark
  have hbrace : '\x7b' ∉ ms := fun hmem => hl.no_brace (hms ▸ brace_mem_ofChars hmem)
  have ha := (attempt?_eq_ok_iff_foundAt ((hsignature? ['a']).trans (by simp)) (by decide)).2
    ⟨_, _, _, rfl, foundAt_outer hms hmark⟩
  have hb := (attempt?_eq_ok_iff_foundAt ((hsignature? ['b']).trans (by simp)) (by decide)).2
    ⟨_, _, _, rfl, foundAt_inner hms hmark hbrace⟩
  refine ⟨_, ofChars ['a'], ofChars ['b'], _, _, isUtf8_iff.2 ⟨_, rfl⟩, by decide,
    isUtf8_iff.2 ⟨_, rfl⟩, by decide, ha, hb, ?_⟩
  have hinner : 6 ≤ (inner ms).length := by
    have hsix : (ofChars ['b', '(', 'x', ')', '\x7b', 'z']).length = 6 := by decide
    rw [inner, List.length_append, hsix]
    omega
  simp only [Span.mk.injEq, Span.Separate, List.length_append, List.length_cons]
  omega

/-- One mark keeps all bodies of all texts apart just if it has no replacement character. -/
theorem separate_iff (hl : l.OneMark) (hvalid : l.nextUnit.isUtf8 = true) :
    (∀ (t a b : Text) (A B : Span), a.isUtf8 = true → brace ∉ a → b.isUtf8 = true → brace ∉ b →
      l.attempt? a t = some (.ok A) → l.attempt? b t = some (.ok B) → A = B ∨ A.Separate B) ↔
    '�' ∉ l.nextUnit.chars := by
  constructor
  · intro h hmark
    obtain ⟨t, a, b, A, B, ha, hafree, hb, hbfree, hA, hB, hoverlap⟩ :=
      exists_overlap hl hvalid hmark
    exact hoverlap (h t a b A B ha hafree hb hbfree hA hB)
  · intro hmark t a b A B ha hafree hb hbfree hA hB
    exact eq_or_separate hl ha hafree hb hbfree hA hB fun hmem => absurd hmem hmark

/-- A mark that is read at a stray byte ends no body. Here the body of the second unit lies inside
of the body of the first one. -/
theorem attempt?_overlaps :
    let l : Landmarks := ⟨"�", "�"⟩
    let t : Text := "�a(x)\x7b" ++ ([0xFF] : Text) ++ "b(y)\x7bz"
    l.OneMark ∧ isUtf8 "a" = true ∧ brace ∉ ("a" : Text) ∧ isUtf8 "b" = true ∧
      brace ∉ ("b" : Text) ∧ l.attempt? "a" t = some (.ok ⟨8, 15⟩) ∧
      l.attempt? "b" t = some (.ok ⟨14, 15⟩) ∧
      ¬ ((⟨8, 15⟩ : Span) = ⟨14, 15⟩ ∨ (⟨8, 15⟩ : Span).Separate ⟨14, 15⟩) := by
  exact ⟨⟨rfl, by decide +kernel, by decide +kernel⟩, by decide +kernel, by decide +kernel,
    by decide +kernel, by decide +kernel, by decide +kernel, by decide +kernel, by decide⟩

end Landmarks

end Reroute
