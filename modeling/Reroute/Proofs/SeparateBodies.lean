import Reroute.Proofs.FreshStart

/-!
# Bodies that are kept apart

If one mark both declares units and ends the bodies before them, two bodies are the same or lie
apart, whatever the text looks like. The reason is the brace. A signature holds one brace, its last
byte, so a signature that ends behind the start of a body has to begin there as well, and the mark
with which it begins ends that body.

For the same reason a body can be exchanged without an effect on the other units. What stands before
its brace is read as before, since no signature, mark or encoding goes on across a brace; what
stands behind it starts with the mark, so it is read as if it stood alone; and no unit is declared
in between as long as no mark begins there.

All of this takes the mark to be found where it is read. A mark with the replacement character is
read at stray bytes too, where it does not stand, and then a body can begin inside of another one.

## Main definitions

* `Landmarks.OneMark` — one mark declares units and ends bodies
* `Span.Separate` — spans one of which ends before the other one starts
* `Span.replace` — a text with other bytes in the place of a span
* `Landmarks.FoundAt` — what locating a unit finds, with offsets

## Main results

* `Landmarks.SignatureAt.append_brace` — a signature does not go on across a brace
* `Landmarks.FoundAt.stop_le` — a body ends before the signature of a later one
* `Landmarks.eq_or_separate` — bodies are the same or apart
* `Landmarks.attempt?_separate` — so they are, and one can be exchanged without the other
-/

namespace Reroute

open Text Rune

namespace Span

/-- One of two spans ends before the other one starts. -/
def Separate (s s' : Span) : Prop := s.stop ≤ s'.start ∨ s'.stop ≤ s.start

instance (s s' : Span) : Decidable (s.Separate s') :=
  inferInstanceAs (Decidable (s.stop ≤ s'.start ∨ s'.stop ≤ s.start))

/-- The text with other bytes in the place of a span. -/
def replace (s : Span) (t r : Text) : Text := s.before t ++ (r ++ s.after t)

/-- The span so many bytes further on. -/
def shift (s : Span) (n : Int) : Span := ⟨s.start + n, s.stop + n⟩

end Span

namespace Landmarks

variable {l : Landmarks} {pattern : List Char} {t u x y z r w : Text} {c start stop k : Nat}

/-! ### Signatures and braces -/

private theorem encode_brace : String.utf8EncodeChar '\x7b' = [brace] := by decide

private theorem eq_of_brace_mem_encode {c : Char} (h : brace ∈ String.utf8EncodeChar c) :
    c = '\x7b' := by
  have hbrace : brace.toNat = 123 := by decide
  rcases utf8EncodeChar_cases c with ⟨a, henc, ha, _⟩ | ⟨a, b, henc, ha, hb, _⟩ |
    ⟨a, b, d, henc, ha, hb, hd, _⟩ | ⟨a, b, d, e, henc, ha, hb, hd, he, _⟩ <;>
    simp only [henc, List.mem_cons, List.not_mem_nil, or_false, ← UInt8.toNat_inj, hbrace] at h
  · exact Char.toNat_inj.1 (by rw [← ha, ← h]; rfl)
  all_goals omega

private theorem fresh_brace (y : Text) : ∀ b ∈ (brace :: y).head?, ¬ IsTail b := by
  rintro b hb
  cases hb
  simp [IsTail, brace, byte]

/-- Spelled characters hold no brace that is not one of them. -/
theorem not_brace_of_spelledAt {cs : List Char} {i j : Nat} (hcs : '\x7b' ∉ cs)
    (h : t.SpelledAt cs i j) : ∀ k, i ≤ k → k < j → t[k]? ≠ some brace := by
  induction cs generalizing i with
  | nil =>
    obtain rfl : i = j := h
    intro k hk hlt
    omega
  | cons c cs ih =>
    obtain ⟨hc, hcs⟩ := not_or.1 (mt List.mem_cons.2 hcs)
    intro k hk hlt hbrace
    rcases h with ⟨⟨rest, hrest⟩, h⟩ | ⟨-, hstray, h⟩
    · by_cases hin : k < i + c.utf8Size
      · have hmem : brace ∈ String.utf8EncodeChar c := by
          rw [← Nat.add_sub_cancel' hk, ← List.getElem?_drop, ← hrest,
            List.getElem?_append_left (by rw [String.length_utf8EncodeChar]; omega)] at hbrace
          exact List.mem_of_getElem? hbrace
        exact hc (eq_of_brace_mem_encode hmem).symm
      · exact ih hcs h k (by omega) hlt hbrace
    · by_cases hin : k = i
      · subst hin
        -- a brace is a character of its own
        have henc : String.utf8EncodeChar '\x7b' <+: t.drop k := by
          obtain ⟨hk, hget⟩ := List.getElem?_eq_some_iff.1 hbrace
          rw [encode_brace, List.drop_eq_getElem_cons hk, hget]
          exact ⟨_, rfl⟩
        rcases hstray.2 k '\x7b' henc with hlt' | hle
        · exact Nat.lt_irrefl _ hlt'
        · have := Char.utf8Size_pos '\x7b'
          omega
      · exact ih hcs h k (by omega) hlt hbrace

/-- A signature holds one brace, its last byte. -/
theorem SignatureAt.not_brace (hpattern : '\x7b' ∉ pattern) (h : SignatureAt pattern t c start) :
    c < start ∧ ∀ k, c ≤ k → k + 1 < start → t[k]? ≠ some brace := by
  obtain ⟨paren, arguments, body, hspelled, hdrop, hne, hfree, rfl⟩ := h
  have hle := hspelled.le
  refine ⟨by omega, fun k hk hlt hbrace => ?_⟩
  by_cases hin : k < paren
  · exact not_brace_of_spelledAt hpattern hspelled k hk hin hbrace
  · rw [← Nat.add_sub_cancel' (Nat.not_lt.1 hin), ← List.getElem?_drop, hdrop,
      List.getElem?_append_left (by omega)] at hbrace
    exact hfree (List.mem_of_getElem? hbrace)

/-- A signature that begins before a brace ends with it at the latest, so what follows the brace
makes no difference to it. -/
theorem SignatureAt.append_brace (hpattern : '\x7b' ∉ pattern)
    (h : SignatureAt pattern (x ++ brace :: y) c start) (hc : c ≤ x.length) (y' : Text) :
    start ≤ x.length + 1 ∧ SignatureAt pattern (x ++ brace :: y') c start := by
  obtain ⟨paren, arguments, body, hspelled, hdrop, hne, hfree, rfl⟩ := h
  have hparen : paren ≤ x.length := by
    by_contra hlt
    refine not_brace_of_spelledAt hpattern hspelled x.length hc (by omega) ?_
    simp
  have hspelled' : (x ++ brace :: y').SpelledAt pattern c paren :=
    (spelledAt_append_left (fresh_brace y') hparen).2
      ((spelledAt_append_left (fresh_brace y) hparen).1 hspelled)
  rw [List.drop_append_of_le_length hparen] at hdrop
  obtain ⟨more, hmore⟩ : arguments <+: x.drop paren := by
    rcases List.append_eq_append_iff.1 hdrop with ⟨m, rfl, hm⟩ | ⟨m, heq, -⟩
    · cases m with
      | nil => rw [List.append_nil]
      | cons b m =>
        obtain ⟨rfl, -⟩ := List.cons.inj hm
        exact absurd (List.mem_append_right _ List.mem_cons_self) hfree
    · exact ⟨m, heq.symm⟩
  have hlength := congrArg List.length hmore
  rw [List.length_append, List.length_drop] at hlength
  -- the arguments end at this brace or at an earlier one
  have hbody : ∃ body', more ++ brace :: y' = brace :: body' := by
    rw [← hmore, List.append_assoc, List.append_cancel_left_eq] at hdrop
    cases more with
    | nil => exact ⟨y', rfl⟩
    | cons b more =>
      obtain ⟨rfl, -⟩ := List.cons.inj hdrop
      exact ⟨_, rfl⟩
  obtain ⟨body', hbody'⟩ := hbody
  refine ⟨by omega, paren, arguments, body', hspelled', ?_, hne, hfree, rfl⟩
  rw [List.drop_append_of_le_length hparen, ← hmore, List.append_assoc, hbody']

/-- Behind a fresh start signatures are those of the text that starts there. -/
theorem signatureAt_append_right (hz : ∀ b ∈ z.head?, ¬ IsTail b) :
    SignatureAt pattern (u ++ z) (u.length + c) start ↔
      ∃ start', start = u.length + start' ∧ SignatureAt pattern z c start' := by
  constructor
  · rintro ⟨_, arguments, body, hspelled, hdrop, hne, hfree, rfl⟩
    obtain ⟨paren, rfl, hspelled'⟩ := (spelledAt_append_right hz).1 hspelled
    rw [List.drop_length_add_append] at hdrop
    exact ⟨paren + arguments.length + 1, by omega,
      paren, arguments, body, hspelled', hdrop, hne, hfree, rfl⟩
  · rintro ⟨_, rfl, paren, arguments, body, hspelled, hdrop, hne, hfree, rfl⟩
    exact ⟨u.length + paren, arguments, body, (spelledAt_append_right hz).2 ⟨paren, rfl, hspelled⟩,
      by rwa [List.drop_length_add_append], hne, hfree, by omega⟩

/-! ### Marks and braces -/

/-- Units are declared by the mark that ends the body before them, and the mark holds no brace. -/
structure OneMark (l : Landmarks) : Prop where
  same : l.declaration = l.nextUnit
  ne_nil : l.nextUnit ≠ []
  no_brace : brace ∉ l.nextUnit

/-- A mark that begins before a brace ends before it. -/
theorem OneMark.prefix_drop_iff (hl : l.OneMark) (hk : k ≤ x.length) (y : Text) :
    l.nextUnit <+: (x ++ brace :: y).drop k ↔ l.nextUnit <+: x.drop k := by
  rw [List.drop_append_of_le_length hk]
  exact prefix_append_iff_of_apart (apart_singleton hl.ne_nil hl.no_brace)

/-- A body ends at the next mark at the latest. -/
theorem StopsAt.le_of_mark (hl : l.OneMark) (h : l.StopsAt t start stop) (hk : start ≤ k)
    (hmark : l.nextUnit <+: t.drop k) : stop ≤ k := by
  rcases h with ⟨-, -, -, hfirst⟩ | ⟨-, hnone⟩
  · exact Nat.not_lt.1 fun hlt => hfirst k hk hlt hmark
  · exact absurd hmark (hnone.resolve_left hl.ne_nil k hk)

/-- A body that ends before a brace ends there whatever follows the brace. -/
theorem StopsAt.append_brace (hl : l.OneMark) (h : l.StopsAt (x ++ brace :: y) start stop)
    (hstop : stop ≤ x.length) (y' : Text) : l.StopsAt (x ++ brace :: y') start stop := by
  rcases h with ⟨hne, hle, hmark, hfirst⟩ | ⟨rfl, -⟩
  · refine .inl ⟨hne, hle, ?_, fun k hk hlt hk' => hfirst k hk hlt ?_⟩
    · exact (hl.prefix_drop_iff hstop y').2 ((hl.prefix_drop_iff hstop y).1 hmark)
    · exact (hl.prefix_drop_iff (by omega) y).2 ((hl.prefix_drop_iff (by omega) y').1 hk')
  · rw [List.length_append, List.length_cons] at hstop
    omega

theorem stopsAt_append_right :
    l.StopsAt (u ++ z) (u.length + start) stop ↔
      ∃ stop', stop = u.length + stop' ∧ l.StopsAt z start stop' := by
  have hshift : ∀ k, l.nextUnit <+: (u ++ z).drop (u.length + k) ↔ l.nextUnit <+: z.drop k := by
    intro k
    rw [List.drop_length_add_append]
  constructor
  · rintro (⟨hne, hle, hmark, hfirst⟩ | ⟨rfl, hnone⟩)
    · obtain ⟨stop, rfl⟩ := Nat.exists_eq_add_of_le (Nat.le_of_add_right_le hle)
      exact ⟨stop, rfl, .inl ⟨hne, by omega, (hshift stop).1 hmark, fun k hk hlt hk' =>
        hfirst (u.length + k) (by omega) (by omega) ((hshift k).2 hk')⟩⟩
    · exact ⟨z.length, List.length_append, .inr ⟨rfl, hnone.imp_right fun hnone k hk hk' =>
        hnone (u.length + k) (by omega) ((hshift k).2 hk')⟩⟩
  · rintro ⟨stop', rfl, ⟨hne, hle, hmark, hfirst⟩ | ⟨rfl, hnone⟩⟩
    · refine .inl ⟨hne, by omega, (hshift stop').2 hmark, fun k hk hlt hk' => ?_⟩
      obtain ⟨k, rfl⟩ := Nat.exists_eq_add_of_le (Nat.le_of_add_right_le hk)
      exact hfirst k (by omega) (by omega) ((hshift k).1 hk')
    · refine .inr ⟨List.length_append.symm, hnone.imp_right fun hnone k hk hk' => ?_⟩
      obtain ⟨k, rfl⟩ := Nat.exists_eq_add_of_le (Nat.le_of_add_right_le hk)
      exact hnone k (by omega) ((hshift k).1 hk')

/-! ### What is found -/

/-- A pattern that declares a unit by the mark, and in which no brace stands. -/
structure Declares (l : Landmarks) (pattern : List Char) : Prop where
  valid : l.nextUnit.isUtf8 = true
  lead : l.nextUnit.chars <+: pattern
  no_brace : '\x7b' ∉ pattern

/-- The first signature with a pattern begins at `c`, and its body reaches from `start` to
`stop`. -/
structure FoundAt (l : Landmarks) (pattern : List Char) (t : Text) (c start stop : Nat) : Prop where
  signature : SignatureAt pattern t c start
  first : ∀ k < c, ∀ start', ¬ SignatureAt pattern t k start'
  stops : l.StopsAt t start stop

/-- A signature begins with the mark. -/
theorem SignatureAt.mark (hp : l.Declares pattern) (h : SignatureAt pattern t c start)
    (hplain : '�' ∈ l.nextUnit.chars → t.isUtf8 = true) : l.nextUnit <+: t.drop c := by
  obtain ⟨rest, rfl⟩ := hp.lead
  obtain ⟨paren, -, -, hspelled, -⟩ := h
  obtain ⟨k, hmark, -⟩ := spelledAt_append_iff.1 hspelled
  obtain ⟨ds, hds⟩ := isUtf8_iff.1 hp.valid
  have hprefix := hmark.prefix_drop hplain
  rwa [hds, chars_ofChars, ← hds] at hprefix

/-- A body ends before the signature of a body that starts later. -/
theorem FoundAt.stop_le {pattern' : List Char} {c' start' stop' : Nat} (hl : l.OneMark)
    (hp' : l.Declares pattern') (hplain : '�' ∈ l.nextUnit.chars → t.isUtf8 = true)
    (h : l.FoundAt pattern t c start stop) (h' : l.FoundAt pattern' t c' start' stop')
    (hlt : start < start') : start ≤ c' ∧ stop ≤ c' := by
  obtain ⟨hpos, -, hbrace⟩ := h.signature.bounds
  obtain ⟨-, hfree⟩ := h'.signature.not_brace hp'.no_brace
  have hle : start ≤ c' := by
    by_contra hbefore
    exact hfree (start - 1) (by omega) (by omega) hbrace
  exact ⟨hle, h.stops.le_of_mark hl hle (h'.signature.mark hp' hplain)⟩

/-- A text around a body that was found. -/
theorem FoundAt.exists_split (h : l.FoundAt pattern t c start stop) :
    ∃ x body z, t = x ++ brace :: (body ++ z) ∧ start = x.length + 1 ∧
      stop = x.length + 1 + body.length ∧ (z = [] ∨ l.nextUnit <+: z) := by
  obtain ⟨hpos, hstart, hbrace⟩ := h.signature.bounds
  obtain ⟨hle, hstop, -⟩ := h.stops.bounds hstart
  obtain ⟨hlt, hget⟩ := List.getElem?_eq_some_iff.1 hbrace
  refine ⟨t.take (start - 1), (t.drop start).take (stop - start), t.drop stop, ?_, ?_, ?_, ?_⟩
  · have hafter : (t.drop start).take (stop - start) ++ t.drop stop = t.drop start := by
      have hdrop : t.drop stop = (t.drop start).drop (stop - start) := by
        rw [List.drop_drop, Nat.add_sub_cancel' hle]
      rw [hdrop, List.take_append_drop]
    have hat : t.drop (start - 1) = brace :: t.drop start := by
      rw [List.drop_eq_getElem_cons hlt, hget, Nat.sub_add_cancel hpos]
    rw [hafter, ← hat, List.take_append_drop]
  · rw [List.length_take]
    omega
  · rw [List.length_take, List.length_take, List.length_drop]
    omega
  · rcases h.stops with ⟨-, -, hmark, -⟩ | ⟨rfl, -⟩
    · exact .inr hmark
    · exact .inl List.drop_length

/-! ### Another body in its place -/

section Replace

variable {body : Text}

theorem length_append_brace (x w : Text) : (x ++ brace :: w).length = x.length + 1 + w.length := by
  rw [List.length_append, List.length_cons]
  omega

theorem append_brace_append (x w z : Text) :
    x ++ brace :: (w ++ z) = (x ++ brace :: w) ++ z := by
  rw [List.append_assoc, List.cons_append]

/-- A unit that is declared before the brace is found where it was. -/
theorem FoundAt.first_append_brace (hp : l.Declares pattern) (hc : c ≤ x.length)
    (h : l.FoundAt pattern (x ++ brace :: y) c start stop) (y' : Text) :
    start ≤ x.length + 1 ∧ SignatureAt pattern (x ++ brace :: y') c start ∧
      ∀ k < c, ∀ start', ¬ SignatureAt pattern (x ++ brace :: y') k start' := by
  obtain ⟨hstart, hsignature⟩ := h.signature.append_brace hp.no_brace hc y'
  exact ⟨hstart, hsignature, fun k hk start' hk' =>
    h.first k hk start' (hk'.append_brace hp.no_brace (by omega) y).2⟩

/-- The unit whose body is exchanged has the new one. -/
theorem FoundAt.replace_own (hl : l.OneMark) (hp : l.Declares pattern)
    (hz : z = [] ∨ l.nextUnit <+: z)
    (hfree : ∀ k, x.length + 1 ≤ k → k < x.length + 1 + r.length →
      ¬ l.nextUnit <+: (x ++ brace :: (r ++ z)).drop k)
    (h : l.FoundAt pattern (x ++ brace :: y) c (x.length + 1) stop) :
    l.FoundAt pattern (x ++ brace :: (r ++ z)) c (x.length + 1) (x.length + 1 + r.length) := by
  obtain ⟨hlt, -⟩ := h.signature.not_brace hp.no_brace
  obtain ⟨-, hsignature, hfirst⟩ := h.first_append_brace hp (by omega) (r ++ z)
  refine ⟨hsignature, hfirst, ?_⟩
  have hbehind : (x ++ brace :: (r ++ z)).drop (x.length + 1 + r.length) = z := by
    rw [Nat.add_assoc, List.drop_length_add_append, Nat.add_comm, List.drop_succ_cons,
      List.drop_left]
  rcases hz with rfl | hmark
  · have hlength : (x ++ brace :: (r ++ [])).length = x.length + 1 + r.length := by
      rw [List.append_nil, length_append_brace]
    refine .inr ⟨hlength.symm, .inr fun k hk hk' => ?_⟩
    by_cases hin : k < x.length + 1 + r.length
    · exact hfree k hk hin hk'
    · rw [List.drop_eq_nil_of_le (by omega)] at hk'
      exact hl.ne_nil (List.prefix_nil.1 hk')
  · exact .inl ⟨hl.ne_nil, Nat.le_add_right _ _, hbehind.symm ▸ hmark, hfree⟩

/-- A unit whose body ends before the brace keeps its body. -/
theorem FoundAt.replace_behind (hl : l.OneMark) (hp : l.Declares pattern) (hstop : stop ≤ x.length)
    (h : l.FoundAt pattern (x ++ brace :: y) c start stop) (y' : Text) :
    l.FoundAt pattern (x ++ brace :: y') c start stop := by
  obtain ⟨hlt, -⟩ := h.signature.not_brace hp.no_brace
  obtain ⟨hle, -⟩ := h.stops.bounds h.signature.bounds.2.1
  obtain ⟨-, hsignature, hfirst⟩ := h.first_append_brace hp (by omega) y'
  exact ⟨hsignature, hfirst, h.stops.append_brace hl hstop y'⟩

/-- A unit that is declared behind the body moves along with what it stands in. -/
theorem FoundAt.replace_before (hp : l.Declares pattern)
    (hz : ∀ b ∈ z.head?, ¬ IsTail b)
    (hfree : ∀ k, x.length + 1 ≤ k → k < x.length + 1 + r.length →
      ¬ l.nextUnit <+: (x ++ brace :: (r ++ z)).drop k)
    (hplain : '�' ∈ l.nextUnit.chars → (x ++ brace :: (r ++ z)).isUtf8 = true)
    (hc : x.length + 1 + body.length ≤ c)
    (h : l.FoundAt pattern (x ++ brace :: (body ++ z)) c start stop) :
    ∃ c' start' stop', start = x.length + 1 + body.length + start' ∧
      stop = x.length + 1 + body.length + stop' ∧
      l.FoundAt pattern (x ++ brace :: (r ++ z)) (x.length + 1 + r.length + c')
        (x.length + 1 + r.length + start') (x.length + 1 + r.length + stop') := by
  have hsplit (w : Text) := append_brace_append x w z
  have hlength := length_append_brace x
  obtain ⟨c', rfl⟩ := Nat.exists_eq_add_of_le hc
  have hsignature := h.signature
  rw [hsplit, ← hlength, signatureAt_append_right hz] at hsignature
  obtain ⟨start', rfl, hsignature⟩ := hsignature
  have hstops := h.stops
  rw [hsplit, stopsAt_append_right] at hstops
  obtain ⟨stop', rfl, hstops⟩ := hstops
  refine ⟨c', start', stop', by rw [hlength], by rw [hlength], ?_, ?_, ?_⟩
  · rw [hsplit, ← hlength]
    exact (signatureAt_append_right hz).2 ⟨start', rfl, hsignature⟩
  · intro k hk s hk'
    rcases Nat.lt_or_ge k (x.length + 1) with hbefore | hbehind
    · -- before the brace nothing has changed
      exact h.first k (by omega) s (hk'.append_brace hp.no_brace (by omega) (body ++ z)).2
    rcases Nat.lt_or_ge k (x.length + 1 + r.length) with hin | hafter
    · exact hfree k hbehind hin (hk'.mark hp hplain)
    · obtain ⟨k, rfl⟩ := Nat.exists_eq_add_of_le hafter
      rw [hsplit, ← hlength, signatureAt_append_right hz] at hk'
      obtain ⟨s', rfl, hk'⟩ := hk'
      refine h.first (x.length + 1 + body.length + k) (by omega)
        (x.length + 1 + body.length + s') ?_
      rw [hsplit, ← hlength]
      exact (signatureAt_append_right hz).2 ⟨s', rfl, hk'⟩
  · rw [hsplit, ← hlength]
    exact stopsAt_append_right.2 ⟨stop', rfl, hstops⟩

end Replace

/-! ### Located units -/

section Located

variable {name a b : Text} {span : Span}

theorem brace_mem_ofChars {cs : List Char} (h : '\x7b' ∈ cs) : brace ∈ ofChars cs :=
  List.mem_flatMap.2 ⟨'\x7b', h, by rw [encode_brace]; exact List.mem_cons_self⟩

/-- The pattern of a unit that was located. -/
theorem declares_of_attempt? (hl : l.OneMark) (hname : name.isUtf8 = true) (hfree : brace ∉ name)
    (h : l.attempt? name t = some (.ok span)) :
    name ≠ [] ∧ ∃ pattern, l.signature? name = some pattern ∧ l.Declares pattern := by
  rw [attempt?] at h
  split at h
  · cases h
  rename_i hne
  refine ⟨by simpa using hne, ?_⟩
  cases hpattern : l.signature? name with
  | none => rw [hpattern] at h; cases h
  | some pattern =>
    refine ⟨pattern, rfl, ?_⟩
    rw [signature?] at hpattern
    split at hpattern
    · rename_i hvalid
      obtain ⟨ns, rfl⟩ := isUtf8_iff.1 hname
      have hfresh := not_isTail_head_ofChars ns
      obtain ⟨hmark, -⟩ := (isUtf8_append hfresh).1 hvalid
      obtain ⟨ds, hds⟩ := isUtf8_iff.1 hmark
      rw [hds, ← ofChars_append, chars_ofChars] at hpattern
      cases hpattern
      rw [hl.same] at hds
      refine ⟨hl.same ▸ hmark, ?_, ?_⟩
      · rw [hds, chars_ofChars, List.append_assoc]
        exact List.prefix_append _ _
      · simp only [List.mem_append, List.mem_singleton, not_or]
        exact ⟨⟨fun hmem => hl.no_brace (hds ▸ brace_mem_ofChars hmem),
          fun hmem => hfree (brace_mem_ofChars hmem)⟩, by decide⟩
    · cases hpattern

theorem attempt?_eq_ok_iff_foundAt (hpattern : l.signature? name = some pattern) (hne : name ≠ []) :
    l.attempt? name t = some (.ok span) ↔
      ∃ c start stop : Nat, span = ⟨start, stop⟩ ∧ l.FoundAt pattern t c start stop := by
  rw [attempt?_eq_ok_iff hpattern hne]
  constructor
  · rintro ⟨c, start, stop, hspan, hsignature, hfirst, hstops⟩
    exact ⟨c, start, stop, hspan, hsignature, hfirst, hstops⟩
  · rintro ⟨c, start, stop, hspan, hsignature, hfirst, hstops⟩
    exact ⟨c, start, stop, hspan, hsignature, hfirst, hstops⟩

/-- What follows a body starts afresh. -/
theorem Declares.fresh (hp : l.Declares pattern) (hl : l.OneMark)
    (hz : z = [] ∨ l.nextUnit <+: z) : ∀ b ∈ z.head?, ¬ IsTail b := by
  rcases hz with rfl | ⟨rest, rfl⟩
  · simp
  · obtain ⟨ds, hds⟩ := isUtf8_iff.1 hp.valid
    rw [List.head?_append_of_ne_nil _ hl.ne_nil, hds]
    exact not_isTail_head_ofChars ds

/-- A valid text stays valid if a body is exchanged for a valid one. -/
theorem isUtf8_replace {body : Text} (hz : ∀ b ∈ z.head?, ¬ IsTail b)
    (ht : (x ++ brace :: (body ++ z)).isUtf8 = true) (hr : r.isUtf8 = true) :
    (x ++ brace :: (r ++ z)).isUtf8 = true := by
  have hbrace : ∀ w : Text, isUtf8 (brace :: w) = w.isUtf8 := by
    intro w
    have henc : brace :: w = String.utf8EncodeChar '\x7b' ++ w := by rw [encode_brace]; rfl
    rw [henc, isUtf8, runes_encode_append, List.all_cons, isScalar, Bool.true_and, isUtf8]
  rw [isUtf8_append (fresh_brace _), hbrace, isUtf8_append hz] at ht ⊢
  exact ⟨ht.1, hr, ht.2.2⟩

private theorem replace_eq (x body z r : Text) :
    (⟨(x.length + 1 : Nat), (x.length + 1 + body.length : Nat)⟩ : Span).replace
      (x ++ brace :: (body ++ z)) r = x ++ brace :: (r ++ z) := by
  have hfront : x ++ brace :: (body ++ z) = (x ++ [brace]) ++ (body ++ z) := by simp
  have hlength : (x ++ [brace]).length = x.length + 1 := by simp
  simp only [Span.replace, Span.before, Span.after, Int.toNat_natCast]
  rw [hfront, ← hlength, List.take_left, List.drop_length_add_append, List.drop_left]
  simp

private theorem body_before (s : Nat) {e : Nat} (he : e ≤ x.length) (y : Text) :
    (⟨s, e⟩ : Span).body (x ++ y) = (x.take e).drop s := by
  simp only [Span.body, Int.toNat_natCast, List.take_append_of_le_length he]

private theorem body_behind (s e : Nat) (u z : Text) :
    (⟨(u.length + s : Nat), (u.length + e : Nat)⟩ : Span).body (u ++ z) = (z.take e).drop s := by
  simp only [Span.body, Int.toNat_natCast, List.take_length_add_append, List.drop_length_add_append]

/-- Two bodies are the same, or one of them ends before the other one starts. -/
theorem eq_or_separate {A B : Span} (hl : l.OneMark) (ha : a.isUtf8 = true) (hafree : brace ∉ a)
    (hb : b.isUtf8 = true) (hbfree : brace ∉ b) (hA : l.attempt? a t = some (.ok A))
    (hB : l.attempt? b t = some (.ok B)) (hplain : '�' ∈ l.nextUnit.chars → t.isUtf8 = true) :
    A = B ∨ A.Separate B := by
  obtain ⟨hane, pa, hpa, hda⟩ := declares_of_attempt? hl ha hafree hA
  obtain ⟨hbne, pb, hpb, hdb⟩ := declares_of_attempt? hl hb hbfree hB
  obtain ⟨ca, sa, ea, rfl, hfa⟩ := (attempt?_eq_ok_iff_foundAt hpa hane).1 hA
  obtain ⟨cb, sb, eb, rfl, hfb⟩ := (attempt?_eq_ok_iff_foundAt hpb hbne).1 hB
  have hca := (hfa.signature.not_brace hda.no_brace).1
  have hcb := (hfb.signature.not_brace hdb.no_brace).1
  rcases Nat.lt_trichotomy sa sb with hlt | rfl | hlt
  · obtain ⟨-, hle⟩ := hfa.stop_le hl hdb hplain hfb hlt
    exact .inr (.inl (Int.ofNat_le.2 (by omega)))
  · exact .inl (by rw [hfa.stops.unique hfb.stops])
  · obtain ⟨-, hle⟩ := hfb.stop_le hl hda hplain hfa hlt
    exact .inr (.inr (Int.ofNat_le.2 (by omega)))

/-- The bodies of two units in a text, if one mark declares units and ends bodies: they are the same
or lie apart. If the first one is exchanged for bytes in which no mark begins, the second unit is
found at the same place, up to the shift that comes from another length. It has the new body if the
two bodies were the same, and its old one otherwise. If the mark has the replacement character, the
text and the new bytes have to be valid UTF-8. -/
theorem attempt?_separate {A B : Span} (hl : l.OneMark) (ha : a.isUtf8 = true) (hafree : brace ∉ a)
    (hb : b.isUtf8 = true) (hbfree : brace ∉ b) (hA : l.attempt? a t = some (.ok A))
    (hB : l.attempt? b t = some (.ok B)) (hplain : '�' ∈ l.nextUnit.chars → t.isUtf8 = true) :
    (A = B ∨ A.Separate B) ∧
    ∀ r : Text, ('�' ∈ l.nextUnit.chars → r.isUtf8 = true) →
      (∀ k : Nat, A.start ≤ k → k < A.start + r.length → ¬ l.nextUnit <+: (A.replace t r).drop k) →
      ∃ B', l.attempt? b (A.replace t r) = some (.ok B') ∧
        (A = B → B' = ⟨A.start, A.start + r.length⟩ ∧ B'.body (A.replace t r) = r) ∧
        (A ≠ B → B'.body (A.replace t r) = B.body t ∧
          (B.stop ≤ A.start ∧ B' = B ∨
            A.stop ≤ B.start ∧ B' = B.shift (r.length - (A.stop - A.start)))) := by
  refine ⟨eq_or_separate hl ha hafree hb hbfree hA hB hplain, fun r hr hfree => ?_⟩
  obtain ⟨hane, pa, hpa, hda⟩ := declares_of_attempt? hl ha hafree hA
  obtain ⟨hbne, pb, hpb, hdb⟩ := declares_of_attempt? hl hb hbfree hB
  obtain ⟨ca, sa, ea, rfl, hfa⟩ := (attempt?_eq_ok_iff_foundAt hpa hane).1 hA
  obtain ⟨cb, sb, eb, rfl, hfb⟩ := (attempt?_eq_ok_iff_foundAt hpb hbne).1 hB
  obtain ⟨x, body, z, rfl, rfl, rfl, hz⟩ := hfa.exists_split
  have hfresh := hda.fresh hl hz
  simp only [replace_eq] at hfree ⊢
  have hfree' : ∀ k, x.length + 1 ≤ k → k < x.length + 1 + r.length →
      ¬ l.nextUnit <+: (x ++ brace :: (r ++ z)).drop k :=
    fun k hk hlt => hfree k (by omega) (by omega)
  rcases Nat.lt_trichotomy (x.length + 1) sb with hlt | rfl | hlt
  · -- the second unit is declared behind the body of the first one
    obtain ⟨-, hle⟩ := hfa.stop_le hl hdb hplain hfb hlt
    obtain ⟨c', s', e', rfl, rfl, hnew⟩ := hfb.replace_before hdb hfresh hfree'
      (fun hmem => isUtf8_replace hfresh (hplain hmem) (hr hmem)) hle
    refine ⟨_, (attempt?_eq_ok_iff_foundAt hpb hbne).2 ⟨_, _, _, rfl, hnew⟩, fun heq => ?_,
      fun _ => ⟨?_, .inr ⟨Int.ofNat_le.2 (by omega), ?_⟩⟩⟩
    · rw [Span.mk.injEq] at heq
      omega
    · rw [append_brace_append x r, append_brace_append x body, ← length_append_brace x r,
        ← length_append_brace x body, body_behind, body_behind]
    · simp only [Span.shift, Span.mk.injEq]
      omega
  · -- both units have the same body
    obtain rfl := hfa.stops.unique hfb.stops
    have hnew := hfb.replace_own hl hdb hz hfree'
    refine ⟨_, (attempt?_eq_ok_iff_foundAt hpb hbne).2 ⟨_, _, _, rfl, hnew⟩,
      fun _ => ⟨by simp, ?_⟩, fun hne => absurd rfl hne⟩
    rw [append_brace_append, ← length_append_brace, body_before _ (Nat.le_refl _),
      List.take_length]
    simp
  · -- the first unit is declared behind the body of the second one
    obtain ⟨-, hle⟩ := hfb.stop_le hl hda hplain hfa hlt
    have hca := (hfa.signature.not_brace hda.no_brace).1
    have hnew := hfb.replace_behind hl hdb (by omega) (r ++ z)
    refine ⟨_, (attempt?_eq_ok_iff_foundAt hpb hbne).2 ⟨_, _, _, rfl, hnew⟩, fun heq => ?_,
      fun _ => ⟨?_, .inl ⟨Int.ofNat_le.2 (by omega), rfl⟩⟩⟩
    · rw [Span.mk.injEq] at heq
      omega
    · rw [body_before _ (by omega), body_before _ (by omega)]

/-- Bytes that are not valid UTF-8 do no harm if the mark has no replacement character. The new body
ends with a beginning of the mark. -/
theorem attempt?_separate_stray :
    let l : Landmarks := ⟨"fn ", "fn "⟩
    let t : Text := "fn a(x)\x7b" ++ ([0xFF] : Text) ++ "fn b(\n)\x7by"
    let r : Text := "\x7b" ++ ([0xC3] : Text) ++ "fn"
    l.attempt? "a" t = some (.ok ⟨8, 9⟩) ∧ l.attempt? "b" t = some (.ok ⟨17, 18⟩) ∧
      ∃ B', l.attempt? "b" ((⟨8, 9⟩ : Span).replace t r) = some (.ok B') ∧
        B'.body ((⟨8, 9⟩ : Span).replace t r) = "y" := by
  intro l t r
  have hl : l.OneMark := ⟨rfl, by decide +kernel, by decide +kernel⟩
  have hA : l.attempt? "a" t = some (.ok ⟨8, 9⟩) := by decide +kernel
  have hB : l.attempt? "b" t = some (.ok ⟨17, 18⟩) := by decide +kernel
  have hplain : '�' ∉ l.nextUnit.chars := by decide +kernel
  obtain ⟨-, hreplace⟩ := attempt?_separate hl (by decide +kernel) (by decide +kernel)
    (by decide +kernel) (by decide +kernel) hA hB fun hmem => absurd hmem hplain
  have hr : r.length = 4 := by decide +kernel
  have hfree : ∀ k : Nat, k < 12 → 8 ≤ k →
      ¬ l.nextUnit <+: ((⟨8, 9⟩ : Span).replace t r).drop k := by
    decide +kernel
  obtain ⟨B', hB', -, hbody⟩ := hreplace r (fun hmem => absurd hmem hplain) fun k hk hlt => by
    simp only [hr] at hk hlt
    exact hfree k (by omega) (by omega)
  exact ⟨hA, hB, B', hB', (hbody (by decide)).1.trans (by decide +kernel)⟩

end Located

end Landmarks

end Reroute
