import Reroute.Proofs.Failure

/-!
# The first signature of a unit

A signature is looked for rune by rune, but what it is can be said in bytes: the encodings of some
characters one behind the other, then bytes other than the opening brace, then the brace. Only the
replacement character needs more care, because it is also what a reader sees in the place of a stray
byte. Locating a unit finds the signature with the smallest offset in the text, and the body that
starts behind it.

## Main definitions

* `Text.SpelledAt` — characters stand in a text between two offsets
* `Landmarks.SignatureAt` — a signature at an offset, with the offset where the body starts
* `Landmarks.StopsAt` — where a body ends

## Main results

* `Landmarks.consume_drop_eq_some_iff` — reading a pattern from runes is spelling it out in bytes
* `Landmarks.bodyRunes?_of_first` — the search stops at the first signature
* `Landmarks.attempt?_eq_first_signature` — what locating a unit finds
-/

namespace Reroute

open Text

/-- From offset `i` up to offset `j` a text spells out characters. The replacement character may
stand for a stray byte. -/
def Text.SpelledAt (t : Text) : List Char → Nat → Nat → Prop
  | [], i, j => i = j
  | c :: cs, i, j =>
    String.utf8EncodeChar c <+: t.drop i ∧ t.SpelledAt cs (i + c.utf8Size) j ∨
      c = '�' ∧ t.IsStray i ∧ t.SpelledAt cs (i + 1) j

namespace Landmarks

variable {l : Landmarks} {name t : Text} {pattern : List Char} {i c start stop : Nat}

/-- At offset `c` of a text stands a signature that starts with a pattern, and its body starts at
the offset `start`: behind the pattern there are bytes other than the opening brace, at least one,
and then the brace. -/
def SignatureAt (pattern : List Char) (t : Text) (c start : Nat) : Prop :=
  ∃ paren arguments body, t.SpelledAt pattern c paren ∧
    t.drop paren = arguments ++ brace :: body ∧ arguments ≠ [] ∧ brace ∉ arguments ∧
    start = paren + arguments.length + 1

/-- A body that starts at the offset `start` ends where the next unit starts, or with the text. -/
def StopsAt (l : Landmarks) (t : Text) (start stop : Nat) : Prop :=
  l.nextUnit ≠ [] ∧ start ≤ stop ∧ l.nextUnit <+: t.drop stop ∧
      (∀ k, start ≤ k → k < stop → ¬ l.nextUnit <+: t.drop k) ∨
    stop = t.length ∧ (l.nextUnit = [] ∨ ∀ k, start ≤ k → ¬ l.nextUnit <+: t.drop k)

/-! ### Spelling out a pattern -/

/-- Where characters are spelled out, a rune starts. -/
theorem exists_rune_of_spelledAt {cs : List Char} {j : Nat} (hcs : cs ≠ [])
    (h : t.SpelledAt cs i j) : Boundary t i ∧ ∃ r rs, runes (t.drop i) = r :: rs := by
  obtain ⟨c, cs, rfl⟩ := List.exists_cons_of_ne_nil hcs
  rcases h with ⟨henc, -⟩ | ⟨-, hstray, -⟩
  · obtain ⟨hi, rs, hr⟩ := boundary_of_prefix_drop henc
    exact ⟨hi, _, rs, hr⟩
  · obtain ⟨hi, b, rs, hr⟩ := isStray_iff.1 hstray
    exact ⟨hi, _, rs, hr⟩

/-- The first rune is the one that spells a character, and the others spell what follows. -/
theorem spelledAt_cons_iff {r : Rune} {rs : List Rune} {ch : Char} {cs : List Char} {j : Nat}
    (hi : Boundary t i) (hr : runes (t.drop i) = r :: rs) :
    t.SpelledAt (ch :: cs) i j ↔ r.char = ch ∧ t.SpelledAt cs (i + r.width) j := by
  obtain ⟨rest, hrest, -⟩ := eq_append_of_runes hr
  constructor
  · rintro (⟨henc, hspelled⟩ | ⟨rfl, hstray, hspelled⟩)
    · obtain ⟨-, rs', hr'⟩ := boundary_of_prefix_drop henc
      obtain ⟨rfl, -⟩ := List.cons.inj (hr.symm.trans hr')
      exact ⟨rfl, hspelled⟩
    · obtain ⟨-, b, rs', hr'⟩ := isStray_iff.1 hstray
      obtain ⟨rfl, -⟩ := List.cons.inj (hr.symm.trans hr')
      exact ⟨rfl, hspelled⟩
  · rintro ⟨rfl, hspelled⟩
    cases r with
    | scalar c => exact .inl ⟨⟨rest, hrest.symm⟩, hspelled⟩
    | stray b => exact .inr ⟨rfl, isStray_iff.2 ⟨hi, b, rs, hr⟩, hspelled⟩

/-- Reading a pattern from runes is spelling it out in bytes. -/
theorem consume_drop_eq_some_iff {rest : List Rune} (hi : Boundary t i) :
    consume pattern (runes (t.drop i)) = some rest ↔
      ∃ j, t.SpelledAt pattern i j ∧ rest = runes (t.drop j) := by
  induction pattern generalizing i with
  | nil => simp [consume, SpelledAt, eq_comm]
  | cons ch cs ih =>
    cases hr : runes (t.drop i) with
    | nil =>
      -- nothing is left to spell a character with
      simp only [consume, reduceCtorEq, false_iff, not_exists, not_and]
      intro j hspelled
      obtain ⟨-, r, rs, hr'⟩ := exists_rune_of_spelledAt (by simp) hspelled
      rw [hr] at hr'
      cases hr'
    | cons r rs =>
      obtain ⟨hnext, hrs⟩ := hi.next hr
      rw [consume]
      simp only [spelledAt_cons_iff hi hr]
      by_cases hch : r.char = ch
      · rw [if_pos hch, ← hrs, ih hnext]
        simp [hch]
      · simp [hch]

/-- Where a signature stands, a rune starts. -/
theorem SignatureAt.exists_rune (hpattern : pattern ≠ []) (h : SignatureAt pattern t c start) :
    Boundary t c ∧ ∃ r rs, runes (t.drop c) = r :: rs := by
  obtain ⟨paren, -, -, hspelled, -⟩ := h
  exact exists_rune_of_spelledAt hpattern hspelled

/-! ### Entering a body -/

/-- A body is entered behind the first brace, if something stands before it. -/
theorem enterText?_eq_some_iff {u body : Text} :
    enterText? u = some body ↔
      ∃ arguments, u = arguments ++ brace :: body ∧ arguments ≠ [] ∧ brace ∉ arguments := by
  constructor
  · intro h
    cases u with
    | nil => cases h
    | cons b rest =>
      rw [enterText?] at h
      split at h
      · cases h
      rename_i hb
      rw [afterBrace?] at h
      split at h
      · cases h
      rename_i b' body' hdrop
      cases h
      -- what is passed over has no brace, and what comes next is one
      have hskip : brace ∉ rest.takeWhile (· ≠ brace) := by
        intro hmem
        simpa using List.mem_takeWhile_imp hmem
      have hbrace : b' = brace := by
        have := List.head?_dropWhile_not (fun b : UInt8 => decide (b ≠ brace)) rest
        rw [hdrop] at this
        simpa using this
      refine ⟨b :: rest.takeWhile (· ≠ brace), ?_, by simp, ?_⟩
      · rw [hbrace] at hdrop
        rw [List.cons_append, ← hdrop, List.takeWhile_append_dropWhile]
      · simp only [List.mem_cons, not_or]
        exact ⟨fun heq => hb heq.symm, hskip⟩
  · rintro ⟨arguments, rfl, hne, hfree⟩
    rw [enterText?_eq, afterBrace?_append hfree, afterBrace?_brace]
    rintro y heq
    obtain ⟨b, more, rfl⟩ := List.exists_cons_of_ne_nil hne
    obtain ⟨rfl, -⟩ := List.cons.inj heq
    exact hfree List.mem_cons_self

/-- What follows the brace is the body. -/
theorem drop_behind_brace {paren : Nat} {arguments body : Text}
    (h : t.drop paren = arguments ++ brace :: body) :
    t.drop (paren + arguments.length + 1) = body := by
  rw [Nat.add_assoc, ← List.drop_drop, h, ← List.drop_drop, List.drop_left, List.drop_one,
    List.tail_cons]

/-- The runes at an offset open a body just if a signature stands there. -/
theorem bind_enterBody_eq_some_iff {body : List Rune} (hi : Boundary t i) :
    (consume pattern (runes (t.drop i))).bind enterBody = some body ↔
      ∃ start, SignatureAt pattern t i start ∧ body = runes (t.drop start) := by
  rw [Option.bind_eq_some_iff]
  simp only [consume_drop_eq_some_iff hi]
  constructor
  · rintro ⟨-, ⟨paren, hspelled, rfl⟩, henter⟩
    rw [enterBody_runes, Option.map_eq_some_iff] at henter
    obtain ⟨text, henter, rfl⟩ := henter
    obtain ⟨arguments, hdrop, hne, hfree⟩ := enterText?_eq_some_iff.1 henter
    refine ⟨_, ⟨paren, arguments, text, hspelled, hdrop, hne, hfree, rfl⟩, ?_⟩
    rw [drop_behind_brace hdrop]
  · rintro ⟨start, ⟨paren, arguments, text, hspelled, hdrop, hne, hfree, rfl⟩, rfl⟩
    refine ⟨_, ⟨paren, hspelled, rfl⟩, ?_⟩
    rw [enterBody_runes, enterText?_eq_some_iff.2 ⟨arguments, hdrop, hne, hfree⟩,
      drop_behind_brace hdrop, Option.map_some]

theorem bind_enterBody_eq_none (hi : Boundary t i)
    (h : ∀ start, ¬ SignatureAt pattern t i start) :
    (consume pattern (runes (t.drop i))).bind enterBody = none := by
  by_contra hsome
  obtain ⟨body, hsome⟩ := Option.ne_none_iff_exists'.1 hsome
  obtain ⟨start, hsignature, -⟩ := (bind_enterBody_eq_some_iff hi).1 hsome
  exact h start hsignature

/-! ### The search -/

/-- Up to the first signature the search goes on from rune to rune, and there it stops. -/
theorem bodyRunes?_of_first (hpattern : pattern ≠ []) (hi : Boundary t i) (hle : i ≤ c)
    (hsignature : SignatureAt pattern t c start)
    (hfirst : ∀ k, i ≤ k → k < c → ∀ start', ¬ SignatureAt pattern t k start') :
    bodyRunes? pattern (runes (t.drop i)) = some (runes (t.drop start)) := by
  obtain ⟨hc, r', rs', hr'⟩ := hsignature.exists_rune hpattern
  induction hrs : runes (t.drop i) generalizing i with
  | nil =>
    -- a text that has come to its end has no signature later on
    have hdrop : t.drop i = [] := by rw [← ofRunes_runes (t.drop i), hrs]; rfl
    rw [← Nat.add_sub_cancel' hle, ← List.drop_drop, hdrop, List.drop_nil, runes_nil] at hr'
    cases hr'
  | cons r rs ih =>
    rw [bodyRunes?, ← hrs]
    rcases Nat.eq_or_lt_of_le hle with rfl | hlt
    · rw [(bind_enterBody_eq_some_iff hi).2 ⟨start, hsignature, rfl⟩]
    · obtain ⟨hnext, hrs'⟩ := hi.next hrs
      rw [bind_enterBody_eq_none hi (hfirst i (Nat.le_refl i) hlt)]
      exact ih hnext (hi.le_of_lt hc hlt hrs) (fun k hk => hfirst k (by omega)) hrs'

/-- Without a signature the search comes to the end. -/
theorem bodyRunes?_eq_none (hi : Boundary t i) (h : ∀ k start, ¬ SignatureAt pattern t k start) :
    bodyRunes? pattern (runes (t.drop i)) = none := by
  induction hrs : runes (t.drop i) generalizing i with
  | nil => rfl
  | cons r rs ih =>
    obtain ⟨hnext, hrs'⟩ := hi.next hrs
    rw [bodyRunes?, ← hrs, bind_enterBody_eq_none hi (h i)]
    exact ih hnext hrs'

/-! ### The end of a body -/

/-- A body ends at one place. -/
theorem StopsAt.unique {stop' : Nat} (h : l.StopsAt t start stop) (h' : l.StopsAt t start stop') :
    stop = stop' := by
  rcases h with ⟨hne, hle, hmark, hfirst⟩ | ⟨rfl, hnone⟩ <;>
    rcases h' with ⟨hne', hle', hmark', hfirst'⟩ | ⟨rfl, hnone'⟩
  · rcases Nat.lt_trichotomy stop stop' with hlt | heq | hlt
    · exact absurd hmark (hfirst' stop hle hlt)
    · exact heq
    · exact absurd hmark' (hfirst stop' hle' hlt)
  · exact absurd hmark (hnone'.resolve_left hne stop hle)
  · exact absurd hmark' (hnone.resolve_left hne' stop' hle')
  · rfl

/-- A body stops behind its start and inside of the text, and no unit starts in it. -/
theorem StopsAt.bounds (h : l.StopsAt t start stop) (hstart : start ≤ t.length) :
    start ≤ stop ∧ stop ≤ t.length ∧
      (l.nextUnit ≠ [] → ∀ k, start ≤ k → k < stop → ¬ l.nextUnit <+: t.drop k) := by
  rcases h with ⟨hne, hle, hmark, hfirst⟩ | ⟨rfl, hnone⟩
  · refine ⟨hle, ?_, fun _ => hfirst⟩
    have hlength := hmark.length_le
    have hpos := List.length_pos_iff.2 hne
    rw [List.length_drop] at hlength
    omega
  · exact ⟨hstart, Nat.le_refl _, fun hne k hk _ => hnone.resolve_left hne k hk⟩

/-- The span of a body stops where it should. -/
theorem exists_spanFrom_eq (l : Landmarks) (t : Text) (start : Nat) :
    ∃ stop : Nat, l.spanFrom start t = ⟨start, stop⟩ ∧ l.StopsAt t start stop := by
  rw [spanFrom]
  by_cases hnil : l.nextUnit = []
  · exact ⟨t.length, by simp [hnil], .inr ⟨rfl, .inl hnil⟩⟩
  rw [if_neg (by simpa using hnil)]
  cases hcut : Text.cut? (t.drop start) l.nextUnit with
  | none =>
    rw [indexOf?, hcut]
    refine ⟨t.length, rfl, .inr ⟨rfl, .inr fun k hk hpre => ?_⟩⟩
    refine cut?_eq_none_iff.1 hcut (hpre.isInfix.trans ?_)
    rw [← Nat.add_sub_cancel' hk, ← List.drop_drop]
    exact (List.drop_suffix _ _).isInfix
  | some parts =>
    obtain ⟨x, y⟩ := parts
    rw [indexOf?_of_cut? hcut]
    refine ⟨start + x.length, rfl, .inl ⟨hnil, Nat.le_add_right _ _, ?_, fun k hk hlt => ?_⟩⟩
    · rw [← List.drop_drop, eq_append_of_cut? hcut, List.drop_left]
      exact List.prefix_append _ _
    · have hearly := not_prefix_drop_of_cut? hnil hcut (k - start) (by omega)
      rwa [List.drop_drop, Nat.add_sub_cancel' hk] at hearly

/-! ### Locating a unit -/

/-- A body starts behind a brace of the text. -/
theorem SignatureAt.bounds (h : SignatureAt pattern t c start) :
    0 < start ∧ start ≤ t.length ∧ t[start - 1]? = some brace := by
  obtain ⟨paren, arguments, body, -, hdrop, -, -, rfl⟩ := h
  have hget : t[paren + arguments.length]? = some brace := by
    rw [← List.getElem?_drop, hdrop]
    simp
  have hlt := (List.getElem?_eq_some_iff.1 hget).1
  exact ⟨by omega, by omega, hget⟩

/-- A declaration and a name that are valid make up a pattern. -/
theorem signature?_of_isUtf8 (hdeclaration : l.declaration.isUtf8 = true)
    (hname : name.isUtf8 = true) :
    l.signature? name = some (l.declaration ++ (name ++ "(")).chars := by
  obtain ⟨ds, hds⟩ := isUtf8_iff.1 hdeclaration
  obtain ⟨ns, hns⟩ := isUtf8_iff.1 hname
  have hparen : ("(" : Text) = ofChars ['('] := rfl
  have hvalid : (ofChars (ds ++ ns)).isUtf8 = true := isUtf8_iff.2 ⟨_, rfl⟩
  rw [signature?, hds, hns, hparen, ← ofChars_append, ← ofChars_append, ← ofChars_append,
    if_pos hvalid, chars_ofChars, chars_ofChars, List.append_assoc]

theorem ne_nil_of_signature? (h : l.signature? name = some pattern) : pattern ≠ [] := by
  rw [signature?] at h
  split at h
  · cases h
    simp
  · cases h

/-- Locating a unit finds the first signature. -/
theorem attempt?_of_first (hsignature? : l.signature? name = some pattern) (hne : name ≠ [])
    (hsignature : SignatureAt pattern t c start)
    (hfirst : ∀ k < c, ∀ start', ¬ SignatureAt pattern t k start') :
    l.attempt? name t = some (.ok (l.spanFrom start t)) := by
  have hbody := bodyRunes?_of_first (ne_nil_of_signature? hsignature?) (boundary_zero t)
    (Nat.zero_le c) hsignature fun k _ => hfirst k
  obtain ⟨-, hstart, -⟩ := hsignature.bounds
  have hoffset : (t.length : Int) - byteCount (runes (t.drop start)) = start := by
    rw [byteCount_runes, List.length_drop]
    omega
  rw [List.drop_zero] at hbody
  rw [attempt?, if_neg (by simpa using hne), hsignature?]
  simp only [Option.bind_eq_bind, Option.bind_some, hbody, hoffset, spanFrom?_eq hstart]
  rfl

/-- Without a signature a unit is missing. -/
theorem attempt?_of_none (hsignature? : l.signature? name = some pattern) (hne : name ≠ [])
    (hnone : ∀ c start, ¬ SignatureAt pattern t c start) :
    l.attempt? name t = some (.error (.unitMissing name)) := by
  have hbody := bodyRunes?_eq_none (boundary_zero t) hnone
  rw [List.drop_zero] at hbody
  rw [attempt?, if_neg (by simpa using hne), hsignature?]
  simp only [Option.bind_eq_bind, Option.bind_some, hbody]
  rfl

/-- Of several signatures one is the first. -/
theorem exists_first_or_none (pattern : List Char) (t : Text) :
    (∃ c start, SignatureAt pattern t c start ∧
      ∀ k < c, ∀ start', ¬ SignatureAt pattern t k start') ∨
    ∀ c start, ¬ SignatureAt pattern t c start := by
  classical
  by_cases h : ∃ c start, SignatureAt pattern t c start
  · obtain ⟨start, hstart⟩ := Nat.find_spec h
    exact .inl ⟨Nat.find h, start, hstart, fun k hk start' hk' => Nat.find_min h hk ⟨start', hk'⟩⟩
  · exact .inr fun c start hsignature => h ⟨c, start, hsignature⟩

theorem attempt?_eq_ok_iff (hsignature? : l.signature? name = some pattern) (hne : name ≠ [])
    {span : Span} :
    l.attempt? name t = some (.ok span) ↔
      ∃ c start stop : Nat, span = ⟨start, stop⟩ ∧ SignatureAt pattern t c start ∧
        (∀ k < c, ∀ start', ¬ SignatureAt pattern t k start') ∧ l.StopsAt t start stop := by
  constructor
  · intro h
    rcases exists_first_or_none pattern t with ⟨c, start, hsignature, hfirst⟩ | hnone
    · obtain ⟨stop, hspan, hstop⟩ := l.exists_spanFrom_eq t start
      rw [attempt?_of_first hsignature? hne hsignature hfirst, hspan] at h
      cases h
      exact ⟨c, start, stop, rfl, hsignature, hfirst, hstop⟩
    · rw [attempt?_of_none hsignature? hne hnone] at h
      cases h
  · rintro ⟨c, start, stop, rfl, hsignature, hfirst, hstop⟩
    obtain ⟨stop', hspan, hstop'⟩ := l.exists_spanFrom_eq t start
    rw [attempt?_of_first hsignature? hne hsignature hfirst, hspan, hstop.unique hstop']

theorem attempt?_eq_error_iff (hsignature? : l.signature? name = some pattern) (hne : name ≠ [])
    {e : PatchError} :
    l.attempt? name t = some (.error e) ↔
      e = .unitMissing name ∧ ∀ c start, ¬ SignatureAt pattern t c start := by
  constructor
  · intro h
    rcases exists_first_or_none pattern t with ⟨c, start, hsignature, hfirst⟩ | hnone
    · rw [attempt?_of_first hsignature? hne hsignature hfirst] at h
      cases h
    · rw [attempt?_of_none hsignature? hne hnone] at h
      cases h
      exact ⟨rfl, hnone⟩
  · rintro ⟨rfl, hnone⟩
    exact attempt?_of_none hsignature? hne hnone

/-- What locating a unit finds, for a declaration mark and a name that are valid UTF-8. The unit is
missing just if the text has no signature. Otherwise the body starts behind the brace of the
signature with the smallest offset, and it stops at the next unit, or with the text if there is
none. -/
theorem attempt?_eq_first_signature {l : Landmarks} {name : Text}
    (hdeclaration : l.declaration.isUtf8 = true) (hname : name.isUtf8 = true) (hne : name ≠ [])
    (t : Text) :
    let pattern := (l.declaration ++ (name ++ "(")).chars
    (∀ e, l.attempt? name t = some (.error e) ↔
      e = .unitMissing name ∧ ∀ c start, ¬ SignatureAt pattern t c start) ∧
    (∀ span, l.attempt? name t = some (.ok span) ↔
      ∃ c start stop : Nat, span = ⟨start, stop⟩ ∧ SignatureAt pattern t c start ∧
        (∀ k < c, ∀ start', ¬ SignatureAt pattern t k start') ∧ l.StopsAt t start stop) ∧
    (∀ start stop : Nat, l.attempt? name t = some (.ok ⟨start, stop⟩) →
      0 < start ∧ start ≤ stop ∧ stop ≤ t.length ∧ t[start - 1]? = some brace ∧
        (l.nextUnit ≠ [] → ∀ k, start ≤ k → k < stop → ¬ l.nextUnit <+: t.drop k)) := by
  intro pattern
  have hsignature? := signature?_of_isUtf8 hdeclaration hname
  refine ⟨fun e => attempt?_eq_error_iff hsignature? hne,
    fun span => attempt?_eq_ok_iff hsignature? hne, fun start stop h => ?_⟩
  obtain ⟨c, start', stop', heq, hsignature, -, hstop⟩ := (attempt?_eq_ok_iff hsignature? hne).1 h
  obtain ⟨rfl, rfl⟩ : start = start' ∧ stop = stop' := by simpa using heq
  obtain ⟨hpos, hstart, hbrace⟩ := hsignature.bounds
  obtain ⟨hle, hlength, hfree⟩ := hstop.bounds hstart
  exact ⟨hpos, hle, hlength, hbrace, hfree⟩

/-- A stray byte stands for the replacement character in the name. The first two places at which
the pattern stands are no signatures, since a brace follows at once or a longer name goes on. -/
theorem attempt?_eq_first_signature_stray :
    let l : Landmarks := ⟨"fn ", "fn "⟩
    let name : Text := "é�"
    let t : Text := "fn é" ++ ([0xFF] : Text) ++ "(\x7b fn é�2(x) \x7b fn é" ++ ([0xA9] : Text) ++
      "(\n\x7b\x7d fn g"
    l.declaration.isUtf8 = true ∧ name.isUtf8 = true ∧ name ≠ [] ∧
      l.attempt? name t = some (.ok ⟨33, 35⟩) ∧
      ∃ c, SignatureAt (l.declaration ++ (name ++ "(")).chars t c 33 := by
  intro l name t
  have hdeclaration : l.declaration.isUtf8 = true := by decide +kernel
  have hname : name.isUtf8 = true := by decide +kernel
  have hne : name ≠ [] := by decide +kernel
  have hrun : l.attempt? name t = some (.ok ⟨33, 35⟩) := by decide +kernel
  obtain ⟨-, hok, -⟩ := attempt?_eq_first_signature hdeclaration hname hne t
  obtain ⟨c, start, stop, heq, hsignature, -⟩ := (hok _).1 hrun
  obtain ⟨rfl, -⟩ : 33 = start ∧ 35 = stop := by
    simp only [Span.mk.injEq] at heq
    omega
  exact ⟨hdeclaration, hname, hne, hrun, c, hsignature⟩

end Landmarks

end Reroute
