import Reroute.Attempt
import Reroute.Proofs.Accounting

/-!
# Scanning a span for calls

The scan of a span keeps what it has written, the offsets of the helper calls in it, and the rest of
the span. It cuts the rest at the next target and goes on behind it. Here is what comes out at the
end: the same text and the same offsets as from the pieces of the span, with every cut in range. So
the targets can be put back where the offsets say, and what the balance check finds depends on two
fixed texts only.

## Main definitions

* `Text.LeftmostSeams` — pieces between occurrences that a search from the left finds
* `Text.putBack` — a text with another one in the place of the bytes at some offsets
* `formed?`, `handed?` — the answer of an attempt, by the step that it attempts

## Main results

* `CallRule.scan?_eq` — the scan writes the rerouted rest and the offsets of its seams
* `CallRule.attempt?_eq` — an attempt to reroute a span does what the rule says
* `CallRule.attempt?_exact` — rerouting is exact and can be undone
* `CallRule.attempt?_unbalanced_iff` — the balance check does not depend on the text around a call
-/

namespace Reroute

open Text

namespace Text

variable {t w x y z : Text}

/-! ### Slices -/

@[simp]
theorem slice?_front (x z : Text) : (x ++ z).slice? 0 x.length = some x := by
  have hbody := Span.body_append [] x z
  have hfits := Span.fits_append [] x z
  simp only [List.nil_append, List.length_nil, Nat.zero_add, Nat.cast_zero] at hbody hfits
  rw [slice?, if_pos hfits, hbody]

@[simp]
theorem slice?_back (x z : Text) : (x ++ z).slice? x.length (x ++ z).length = some z := by
  have hbody := Span.body_append x z []
  have hfits := Span.fits_append x z []
  simp only [List.append_nil] at hbody hfits
  rw [slice?, List.length_append, if_pos hfits, hbody]

/-- The parts of a text that a span cuts out. -/
theorem slice?_of_fits {s : Span} (h : s.Fits t) :
    t.slice? s.start s.stop = some (s.body t) ∧ t.slice? 0 s.start = some (s.before t) ∧
      t.slice? s.stop t.length = some (s.after t) := by
  obtain ⟨hstart, hle, hstop⟩ := h
  refine ⟨if_pos ⟨hstart, hle, hstop⟩, ?_, ?_⟩
  · rw [slice?, if_pos ⟨Int.le_refl 0, hstart, Int.le_trans hle hstop⟩]
    rfl
  · rw [slice?, if_pos ⟨Int.le_trans hstart hle, hstop, Int.le_refl _⟩]
    simp [Span.body, Span.after]

theorem indexOf?_of_cut? (h : cut? t w = some (x, y)) : indexOf? t w = some x.length := by
  rw [indexOf?, h]
  rfl

theorem indexOf?_eq_none (h : ¬ w <:+: t) : indexOf? t w = none := by
  rw [indexOf?, cut?_eq_none_iff.2 h]
  rfl

/-! ### Seams -/

/-- Each text `w` between two of the pieces is the first one in what is left from the earlier piece
on, and the last piece has none. -/
def LeftmostSeams (w : Text) : List Text → Prop
  | [] => False
  | [p] => ¬ w <:+: p
  | p :: q :: ps =>
    (∀ k < p.length, ¬ w <+: (join w (p :: q :: ps)).drop k) ∧ LeftmostSeams w (q :: ps)

/-- No occurrence starts before the first one. -/
theorem not_prefix_drop_of_cut? (hw : w ≠ []) (h : cut? t w = some (x, y)) :
    ∀ k < x.length, ¬ w <+: t.drop k := by
  intro k hk hpre
  rw [eq_append_of_cut? h, List.drop_append_of_le_length (Nat.le_of_lt hk)] at hpre
  -- it would end before the last byte of the first occurrence
  have hearly := prefix_append_dropLast (by simpa using hk) hpre
  refine not_infix_of_cut? h hw (hearly.isInfix.trans ⟨x.take k, [], ?_⟩)
  rw [List.append_nil, ← List.append_assoc, List.take_append_drop]

theorem leftmostSeams_pieces (hw : w ≠ []) (t : Text) : LeftmostSeams w (t.pieces w) := by
  induction t using cut_induction hw with
  | free t hfree => rwa [pieces_eq_singleton hfree]
  | cut t x y hcut ih =>
    have hjoin := join_pieces t w
    rw [pieces_of_cut? hw hcut] at hjoin ⊢
    obtain ⟨q, qs, hqs⟩ := List.exists_cons_of_ne_nil (pieces_ne_nil y w)
    rw [hqs] at ih hjoin ⊢
    refine ⟨?_, ih⟩
    rw [hjoin]
    exact not_prefix_drop_of_cut? hw hcut

/-- A text with `w` in the place of the next `gap` bytes at each of the offsets. The last offset
comes first, so that the others still hold. -/
def putBack (w : Text) (gap : Nat) (sites : List Nat) (t : Text) : Text :=
  sites.foldr (fun site t => t.take site ++ (w ++ t.drop (site + gap))) t

end Text

/-! ### The offsets of the helper calls -/

namespace CallRule

variable {c : CallRule} {r : Route} {t out : Text} {span : Span} {sites : List Nat}

theorem siteOffsets_cons (start gap : Nat) (p : Text) {ps : List Text} (hps : ps ≠ []) :
    siteOffsets start gap (p :: ps) =
      (start + p.length) :: siteOffsets (start + p.length + gap) gap ps := by
  obtain ⟨q, qs, rfl⟩ := List.exists_cons_of_ne_nil hps
  rfl

/-- The separator with number `i` stands behind the first `i + 1` pieces. -/
theorem siteOffsets_eq (sep x : Text) (ps : List Text) :
    siteOffsets x.length sep.length ps =
      (List.range (ps.length - 1)).map fun i => (x ++ join sep (ps.take (i + 1))).length := by
  induction ps generalizing x with
  | nil => rfl
  | cons p ps ih =>
    by_cases hps : ps = []
    · subst hps
      rfl
    · have hpos := List.length_pos_iff.2 hps
      have hx : x.length + p.length + sep.length = (x ++ (p ++ sep)).length := by
        simp only [List.length_append]
        omega
      rw [siteOffsets_cons _ _ _ hps, hx, ih, List.length_cons, Nat.add_sub_cancel,
        show ps.length = ps.length - 1 + 1 by omega, List.range_succ_eq_map, List.map_cons,
        List.map_map]
      -- the first offset, and the others counted from behind its separator
      congr 1
      · simp
      · refine List.map_congr_left fun i _ => ?_
        have htake : ps.take (i + 1) ≠ [] := by simpa using hps
        simp [join_cons sep p htake]

/-- Where a separator stands in a joined text. -/
theorem exists_of_mem_siteOffsets {sep : Text} {start site : Nat} {ps : List Text}
    (h : site ∈ siteOffsets start sep.length ps) :
    ∃ u v, join sep ps = u ++ (sep ++ v) ∧ site = start + u.length := by
  induction ps generalizing start with
  | nil => cases h
  | cons p ps ih =>
    by_cases hps : ps = []
    · subst hps
      cases h
    · rw [siteOffsets_cons _ _ _ hps] at h
      rw [join_cons sep p hps]
      rcases List.mem_cons.1 h with rfl | hmem
      · exact ⟨p, join sep ps, rfl, rfl⟩
      · obtain ⟨u, v, hjoin, rfl⟩ := ih hmem
        refine ⟨p ++ (sep ++ u), v, by simp [hjoin], ?_⟩
        simp only [List.length_append]
        omega

theorem pairwise_siteOffsets {sep : Text} (hsep : sep ≠ []) (start : Nat) (ps : List Text) :
    (siteOffsets start sep.length ps).Pairwise (· < ·) := by
  induction ps generalizing start with
  | nil => exact .nil
  | cons p ps ih =>
    by_cases hps : ps = []
    · subst hps
      exact .nil
    · rw [siteOffsets_cons _ _ _ hps]
      refine .cons (fun site hsite => ?_) (ih _)
      -- the other separators stand behind the first one, which has some bytes
      obtain ⟨u, -, -, rfl⟩ := exists_of_mem_siteOffsets hsite
      have hpos := List.length_pos_iff.2 hsep
      omega

/-- Putting another separator in the place of each one. -/
theorem putBack_siteOffsets (w sep x z : Text) (ps : List Text) :
    putBack w sep.length (siteOffsets x.length sep.length ps) (x ++ (join sep ps ++ z)) =
      x ++ (join w ps ++ z) := by
  induction ps generalizing x with
  | nil => rfl
  | cons p ps ih =>
    by_cases hps : ps = []
    · subst hps
      rfl
    · -- the separators behind the first one are replaced before it
      have hx : x.length + p.length + sep.length = (x ++ (p ++ sep)).length := by
        simp only [List.length_append]
        omega
      have hrest := ih (x ++ (p ++ sep))
      rw [← hx] at hrest
      rw [siteOffsets_cons _ _ _ hps, join_cons sep p hps, join_cons w p hps, putBack,
        List.foldr_cons, ← putBack]
      simp only [List.append_assoc] at hrest ⊢
      rw [hrest, hx, ← List.length_append, ← List.append_assoc x p, List.take_left,
        show x ++ p ++ (sep ++ (join w ps ++ z)) = x ++ (p ++ sep) ++ (join w ps ++ z) by simp,
        List.drop_left, List.append_assoc]

/-! ### The scan -/

theorem scan?_of_not_mem {hc : c.target ≠ []} {start : Nat} {built rest : Text}
    (h : ¬ c.target <:+: rest) :
    c.scan? hc r start built sites rest = some (built ++ rest, sites) := by
  rw [scan?, indexOf?_eq_none h]

theorem scan?_of_cut? {hc : c.target ≠ []} {start : Nat} {built rest x y : Text}
    (h : rest.cut? c.target = some (x, y)) :
    c.scan? hc r start built sites rest =
      c.scan? hc r start (built ++ x ++ c.opening r) (sites ++ [start + (built ++ x).length])
        y := by
  have heq : rest = x ++ (c.target ++ y) := eq_append_of_cut? h
  have hfront : rest.slice? 0 x.length = some x := by rw [heq, slice?_front]
  have hback : rest.slice? (x.length + c.target.length : Nat) rest.length = some y := by
    rw [heq, ← List.append_assoc, ← List.length_append, slice?_back]
  rw [scan?, indexOf?_of_cut? h]
  simp only [hfront]
  -- the second slice is bound together with its equation, so it is not rewritten but split
  split
  · rename_i htail
    rw [hback] at htail
    cases htail
  · rename_i tail htail
    rw [hback] at htail
    cases htail
    rfl

/-- The scan writes the rest with its calls rerouted, and it notes the offsets of the seams. -/
theorem scan?_eq (hc : c.target ≠ []) (start : Nat) (built : Text) (sites : List Nat)
    (rest : Text) :
    c.scan? hc r start built sites rest =
      some (built ++ c.reroute r rest,
        sites ++ siteOffsets (start + built.length) (c.opening r).length
          (rest.pieces c.target)) := by
  induction rest using cut_induction hc generalizing built sites with
  | free rest hfree =>
    rw [scan?_of_not_mem hfree, reroute_eq_self hfree, pieces_eq_singleton hfree]
    simp [siteOffsets]
  | cut rest x y hcut ih =>
    have hne := pieces_ne_nil y c.target
    rw [scan?_of_cut? hcut, ih, reroute, reroute, pieces_of_cut? hc hcut, join_cons _ _ hne,
      siteOffsets_cons _ _ _ hne]
    simp [Nat.add_assoc]

end CallRule

/-! ### Attempts and what they attempt -/

/-- An answer, unless it says that no signature can be formed: then a run breaks off. -/
def formed? {α : Type} : Except PatchError α → Option (Except PatchError α)
  | .error .malformedSignature => none
  | answer => some answer

section formed?

variable {α β : Type} {answer answer' : Except PatchError α}

theorem formed?_of_ne (h : answer ≠ .error .malformedSignature) : formed? answer = some answer := by
  match answer with
  | .ok _ => rfl
  | .error e =>
    cases e with
    | malformedSignature => exact absurd rfl h
    | _ => rfl

theorem formed?_map (f : α → β) (answer : Except PatchError α) :
    formed? (answer.map f) = (formed? answer).map (Except.map f) := by
  match answer with
  | .ok _ => rfl
  | .error e => cases e <;> rfl

theorem formed?_eq_none_iff : formed? answer = none ↔ answer = .error .malformedSignature := by
  constructor
  · intro h
    by_contra hne
    rw [formed?_of_ne hne] at h
    cases h
  · rintro rfl
    rfl

theorem formed?_eq_some_iff :
    formed? answer = some answer' ↔ answer = answer' ∧ answer ≠ .error .malformedSignature := by
  by_cases h : answer = .error .malformedSignature
  · subst h
    simp [formed?]
  · simp [formed?_of_ne h, h]

end formed?

/-- What is handed back with the answer of a step: the new text, or with an error the text `t`. -/
def handover {α : Type} (t : Text) : Except PatchError (Text × α) → Handover α
  | .ok (out, value) => ⟨out, .ok value⟩
  | .error e => ⟨t, .error e⟩

/-- The answer of an attempt at a step that gives a new text with a value, or an error. -/
def handed? {α : Type} (t : Text) (step : Except PatchError (Text × α)) : Option (Handover α) :=
  (formed? step).map (handover t)

section handed?

variable {α : Type} {t : Text} {step : Except PatchError (Text × α)}

theorem handed?_ok (t out : Text) (value : α) :
    handed? t (.ok (out, value)) = some ⟨out, .ok value⟩ := rfl

theorem handed?_error {e : PatchError} (h : e ≠ .malformedSignature) :
    handed? (α := α) t (.error e) = some ⟨t, .error e⟩ := by
  rw [handed?, formed?_of_ne (by simpa using h)]
  rfl

theorem handed?_eq_none_iff : handed? t step = none ↔ step = .error .malformedSignature := by
  rw [handed?, Option.map_eq_none_iff, formed?_eq_none_iff]

theorem handed?_eq_ok_iff {out : Text} {value : α} :
    handed? t step = some ⟨out, .ok value⟩ ↔ step = .ok (out, value) := by
  by_cases h : step = .error .malformedSignature
  · rw [handed?_eq_none_iff.2 h, h]
    simp
  · rw [handed?, formed?_of_ne h]
    cases step <;> simp [handover, Prod.ext_iff]

theorem handed?_eq_error_iff {out : Text} {e : PatchError} :
    handed? t step = some ⟨out, .error e⟩ ↔
      step = .error e ∧ e ≠ .malformedSignature ∧ out = t := by
  by_cases h : step = .error .malformedSignature
  · rw [handed?_eq_none_iff.2 h, h]
    grind
  · rw [handed?, formed?_of_ne h]
    cases step with
    | ok done => simp [handover]
    | error e' => grind [handover]

end handed?

deriving instance DecidableEq for Handover

theorem Balance.ne_iff {a b : Balance} :
    a ≠ b ↔ a.round ≠ b.round ∨ a.square ≠ b.square ∨ a.curly ≠ b.curly := by
  cases a
  cases b
  simp only [ne_eq, Balance.mk.injEq]
  tauto

namespace CallRule

variable {c : CallRule} {r : Route} {t out : Text} {span : Span} {sites : List Nat}

/-- Every cut that is made in rerouting a span is in range, and what comes of it is what the rule
says. -/
theorem attempt?_eq (c : CallRule) (t : Text) (span : Span) (r : Route) :
    c.attempt? t span r = handed? t (c.apply t span r) := by
  rw [attempt?, apply]
  by_cases hfit : span.Fits t
  · by_cases hc : c.target = []
    · simp [hfit, hc, handed?_ok]
    · obtain ⟨hbody, hbefore, hafter⟩ := slice?_of_fits hfit
      have hne : ¬ c.target.isEmpty = true := by simpa using hc
      simp only [hfit, not_true_eq_false, if_false, hc, dite_false, hne, hbody, hbefore, hafter,
        scan?_eq, Option.bind_eq_bind, Option.bind_some, List.nil_append, List.length_nil,
        Nat.add_zero, reroute]
      split
      · rfl
      · split <;> rfl
  · simp [hfit, handed?_error]

/-- Whatever becomes of it, rerouting a span forms no signature. -/
theorem apply_ne_malformed (c : CallRule) (t : Text) (span : Span) (r : Route) :
    c.apply t span r ≠ .error .malformedSignature := by
  simp only [apply]
  split_ifs <;> simp

theorem attempt?_eq_ok_iff :
    c.attempt? t span r = some ⟨out, .ok sites⟩ ↔ c.apply t span r = .ok (out, sites) := by
  rw [attempt?_eq, handed?_eq_ok_iff]

theorem opening_ne_nil (c : CallRule) (r : Route) : c.opening r ≠ [] := by
  have hquote : ("(\"" : Text) ≠ [] := by decide
  simp [opening, hquote]

/-! ### Rerouting is exact -/

/-- A rule that goes through has taken the span apart at the targets that a search from the left
finds, and has put openings in their place. It reports where the openings stand, one behind the
other, and putting the target back there gives the old text. A span without a target is left alone,
and one that does not fit is refused. -/
theorem attempt?_exact {c : CallRule} (hc : c.target ≠ []) (t : Text) (span : Span) (r : Route) :
    (∀ out sites, span.Fits t → c.attempt? t span r = some ⟨out, .ok sites⟩ →
      ∃ ps : List Text,
        span.body t = join c.target ps ∧ LeftmostSeams c.target ps ∧
        out = span.before t ++ (join (c.opening r) ps ++ span.after t) ∧
        sites = (List.range (ps.length - 1)).map (fun i =>
          (span.before t ++ join (c.opening r) (ps.take (i + 1))).length) ∧
        sites.Pairwise (· < ·) ∧ (∀ site ∈ sites, c.opening r <+: out.drop site) ∧
        putBack c.target (c.opening r).length sites out = t) ∧
    (span.Fits t → ¬ c.target <:+: span.body t → c.attempt? t span r = some ⟨t, .ok []⟩) ∧
    (¬ span.Fits t →
      c.attempt? t span r = some ⟨t, .error (.spanOutOfRange span t.length)⟩) := by
  refine ⟨fun out sites hfit h => ?_, fun hfit hnot => ?_, fun hfit => ?_⟩
  · obtain ⟨-, rfl, rfl⟩ := (apply_eq_ok_iff hfit hc).1 (attempt?_eq_ok_iff.1 h)
    -- the span starts behind the text before it
    have hstart : span.start.toNat = (span.before t).length := by
      obtain ⟨-, hle, hstop⟩ := hfit
      rw [Span.before, List.length_take]
      omega
    refine ⟨(span.body t).pieces c.target, (join_pieces _ _).symm, leftmostSeams_pieces hc _, rfl,
      ?_, pairwise_siteOffsets (opening_ne_nil c r) _ _, fun site hsite => ?_, ?_⟩
    · rw [hstart, siteOffsets_eq]
    · obtain ⟨u, v, hjoin, rfl⟩ := exists_of_mem_siteOffsets hsite
      rw [reroute, hjoin, hstart, ← List.length_append, List.append_assoc, ← List.append_assoc,
        List.drop_left, List.append_assoc]
      exact List.prefix_append _ _
    · rw [hstart, reroute, putBack_siteOffsets, join_pieces,
        Span.before_append_body_append_after hfit]
  · rw [attempt?_eq_ok_iff, apply_of_not_mem hfit hc hnot]
  · rw [attempt?_eq, apply, if_pos hfit, handed?_error (by simp)]

/-- Targets overlap each other and the borders of the span. Of the three inside of it, the first and
the last are calls. -/
theorem attempt?_exact_overlapping :
    let c : CallRule := ⟨"a(a", "h"⟩
    let r : Route := ⟨"f", "c", "p", "s"⟩
    let t : Text := "a(a(a(a(a(a"
    let out : Text := "a(h(\"f\", \"c\", Some(&p), s, (h(\"f\", \"c\", Some(&p), s, (a"
    c.target ≠ [] ∧ (⟨2, 9⟩ : Span).Fits t ∧
      c.attempt? t ⟨2, 9⟩ r = some ⟨out, .ok [2, 28]⟩ ∧
      putBack c.target (c.opening r).length [2, 28] out = t := by
  intro c r t out
  have hc : c.target ≠ [] := by decide
  have hfit : (⟨2, 9⟩ : Span).Fits t := by decide
  have hrun : c.attempt? t ⟨2, 9⟩ r = some ⟨out, .ok [2, 28]⟩ := by decide +kernel
  obtain ⟨ps, -, -, -, -, -, -, hback⟩ := (attempt?_exact hc t ⟨2, 9⟩ r).1 out [2, 28] hfit hrun
  exact ⟨hc, hfit, hrun, hback⟩

/-! ### The balance check -/

/-- The balance check refuses a span just if there is a call in it and the opening differs from the
target in the count of some kind of bracket; the text around the calls does not matter. If it does
not refuse, the rule goes through, and then the whole text keeps its balance. -/
theorem attempt?_unbalanced_iff {c : CallRule} (hc : c.target ≠ []) {t : Text} {span : Span}
    (hfit : span.Fits t) (r : Route) :
    ((∃ back unit before after,
        c.attempt? t span r = some ⟨back, .error (.unbalanced unit before after)⟩) ↔
      c.target <:+: span.body t ∧
        ((Balance.ofText (c.opening r)).round ≠ (Balance.ofText c.target).round ∨
          (Balance.ofText (c.opening r)).square ≠ (Balance.ofText c.target).square ∨
          (Balance.ofText (c.opening r)).curly ≠ (Balance.ofText c.target).curly)) ∧
    ((∃ out sites, c.attempt? t span r = some ⟨out, .ok sites⟩) ↔
      ¬ ∃ back unit before after,
        c.attempt? t span r = some ⟨back, .error (.unbalanced unit before after)⟩) ∧
    (∀ out sites, c.attempt? t span r = some ⟨out, .ok sites⟩ →
      Balance.ofText out = Balance.ofText t) := by
  have hrefused : (∃ back unit before after,
      c.attempt? t span r = some ⟨back, .error (.unbalanced unit before after)⟩) ↔
      c.target <:+: span.body t ∧
        Balance.ofText (c.opening r) ≠ Balance.ofText c.target := by
    simp only [attempt?_eq, handed?_eq_error_iff, apply_eq_error_iff hfit hc]
    constructor
    · rintro ⟨back, unit, before, after, ⟨hin, hbalance, -⟩, -⟩
      exact ⟨hin, hbalance⟩
    · rintro ⟨hin, hbalance⟩
      exact ⟨t, _, _, _, ⟨hin, hbalance, rfl⟩, by simp, rfl⟩
  simp only [attempt?_eq_ok_iff, apply_eq_ok_iff hfit hc]
  refine ⟨?_, ?_, ?_⟩
  · rw [hrefused, Balance.ne_iff]
  · rw [hrefused, not_and, not_not]
    exact ⟨fun ⟨_, _, hbalance, _⟩ => hbalance, fun hbalance => ⟨_, _, hbalance, rfl, rfl⟩⟩
  · rintro out sites ⟨hbalance, rfl, -⟩
    have hbody : Balance.ofText (c.reroute r (span.body t)) = Balance.ofText (span.body t) := by
      by_cases hin : c.target <:+: span.body t
      · exact Balance.ofText_reroute (hbalance hin) _
      · rw [reroute_eq_self hin]
    conv_rhs => rw [← Span.before_append_body_append_after hfit]
    simp only [Balance.ofText_append, hbody]

/-- Two calls in a body with a bracket too many. A summary with a bracket of its own makes the
opening differ, and no text around it makes up for that. -/
theorem attempt?_unbalanced_iff_smile :
    let c : CallRule := ⟨"ok(", "h"⟩
    let r : Route := ⟨"f", "c", "p", "\":)\""⟩
    let t : Text := "(ok(1 + ok(2)))]"
    c.target ≠ [] ∧ (⟨1, 16⟩ : Span).Fits t ∧
      ∃ back unit before after,
        c.attempt? t ⟨1, 16⟩ r = some ⟨back, .error (.unbalanced unit before after)⟩ := by
  intro c r t
  have hc : c.target ≠ [] := by decide
  have hfit : (⟨1, 16⟩ : Span).Fits t := by decide
  refine ⟨hc, hfit, (attempt?_unbalanced_iff hc hfit r).1.2 ?_⟩
  decide +kernel

end CallRule

end Reroute
