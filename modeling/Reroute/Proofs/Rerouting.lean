import Mathlib.Tactic.Linarith
import Mathlib.Tactic.Ring
import Reroute.CallRule
import Reroute.Proofs.Text.Occurrence

/-!
# Rerouting the calls of a span

What a call rule does to a span in one equation: the pieces of the body are joined by the opening of
the helper call in the place of the target. The balance check compares the brackets of the whole
span, but what it decides is whether the opening and the target have the same balance.

## Main definitions

* `Text.AddsUp` — measures of texts that add up, such as the number of a byte or of open brackets
* `CallRule.reroute` — a body with the openings of a route in the place of the targets

## Main results

* `Text.AddsUp.join` — the measure of a joined text
* `Balance.ofText_join_eq_iff` — joins by two separators balance alike iff the separators do
* `CallRule.apply_eq_ok` — rerouting a span with a separator of the right balance
* `CallRule.apply_eq_error` — a separator of another balance is refused if there is a call
* `CallRule.apply_eq_ok_iff`, `CallRule.apply_eq_error_iff` — when a rule goes through and when not
-/

namespace Reroute

open Text

/-! ### Measures that add up -/

/-- The measure of texts one after the other is the sum of their measures. -/
def Text.AddsUp (f : Text → Int) : Prop := ∀ s t, f (s ++ t) = f s + f t

namespace Text.AddsUp

variable {f : Text → Int}

/-- The measure of a joined text, with the separator counted between the pieces. -/
theorem join (hf : AddsUp f) (sep : Text) {ps : List Text} (hps : ps ≠ []) :
    f (Text.join sep ps) + f sep = (ps.map f).sum + ps.length * f sep := by
  induction ps with
  | nil => exact absurd rfl hps
  | cons p ps ih =>
    by_cases hnil : ps = []
    · simp [hnil]
    · have := ih hnil
      rw [join_cons sep p hnil, hf, hf, List.map_cons, List.sum_cons, List.length_cons]
      push_cast
      linarith

end Text.AddsUp

namespace Balance

/-- The excess of one kind of bracket adds up. -/
theorem addsUp_excess (opening closing : Char) : AddsUp (excess opening closing) :=
  excess_append opening closing

private theorem excess_join_eq_iff (opening closing : Char) {c d : Text} {ps : List Text}
    (hps : 1 < ps.length) :
    excess opening closing (join c ps) = excess opening closing (join d ps) ↔
      excess opening closing c = excess opening closing d := by
  have hne : ps ≠ [] := by
    rintro rfl
    simp at hps
  have hc := (addsUp_excess opening closing).join c hne
  have hd := (addsUp_excess opening closing).join d hne
  have hpos : (ps.length : Int) - 1 ≠ 0 := by omega
  constructor
  · intro h
    -- the difference of the joins is the difference of the separators, once for each seam
    have hmul : ((ps.length : Int) - 1) * (excess opening closing c - excess opening closing d) =
        0 := by
      linarith
    rcases mul_eq_zero.1 hmul with hzero | hzero
    · exact absurd hzero hpos
    · linarith
  · intro h
    rw [h] at hc
    linarith

/-- With two pieces at least, joins balance alike if and only if the separators do. -/
theorem ofText_join_eq_iff {c d : Text} {ps : List Text} (hps : 1 < ps.length) :
    ofText (join c ps) = ofText (join d ps) ↔ ofText c = ofText d := by
  simp only [ofText, Balance.mk.injEq, excess_join_eq_iff _ _ hps]

end Balance

namespace Span

variable {s : Span} {t : Text}

theorem before_append_body_append_after (h : s.Fits t) :
    s.before t ++ (s.body t ++ s.after t) = t := by
  have hle : s.start.toNat ≤ s.stop.toNat := by
    have := h.2.1
    omega
  have hbefore : s.before t = (t.take s.stop.toNat).take s.start.toNat := by
    rw [before, List.take_take, Nat.min_eq_left hle]
  rw [hbefore, body, ← List.append_assoc, List.take_append_drop, after, List.take_append_drop]

/-- The span of the second of three texts. -/
theorem fits_append (x b z : Text) :
    (⟨x.length, (x.length + b.length : Nat)⟩ : Span).Fits (x ++ (b ++ z)) := by
  simp only [Fits, List.length_append]
  omega

@[simp]
theorem before_append (x b z : Text) :
    (⟨x.length, (x.length + b.length : Nat)⟩ : Span).before (x ++ (b ++ z)) = x := by
  simp [before]

@[simp]
theorem body_append (x b z : Text) :
    (⟨x.length, (x.length + b.length : Nat)⟩ : Span).body (x ++ (b ++ z)) = b := by
  rw [body, Int.toNat_natCast, Int.toNat_natCast, ← List.append_assoc, ← List.length_append,
    List.take_left, List.drop_left]

@[simp]
theorem after_append (x b z : Text) :
    (⟨x.length, (x.length + b.length : Nat)⟩ : Span).after (x ++ (b ++ z)) = z := by
  rw [after, Int.toNat_natCast, ← List.append_assoc, ← List.length_append, List.drop_left]

end Span

namespace CallRule

variable {c : CallRule} {r : Route} {t b : Text} {span : Span}

/-- A body with the openings of a route in the place of the targets. -/
def reroute (c : CallRule) (r : Route) (b : Text) : Text := join (c.opening r) (b.pieces c.target)

theorem reroute_eq_self (h : ¬ c.target <:+: b) : c.reroute r b = b := by
  rw [reroute, pieces_eq_singleton h, join_singleton]

/-- A call starts at every seam of the pieces. -/
@[simp]
theorem length_siteOffsets (start gap : Nat) (ps : List Text) :
    (siteOffsets start gap ps).length = ps.length - 1 := by
  induction ps generalizing start with
  | nil => rfl
  | cons p ps ih =>
    cases ps with
    | nil => rfl
    | cons q ps => simp [siteOffsets, ih]

/-- What the balance check decides: whether the opening balances like the target. -/
theorem ofText_eq_ofText_reroute_iff (hc : c.target ≠ []) (hin : c.target <:+: b) :
    Balance.ofText b = Balance.ofText (c.reroute r b) ↔
      Balance.ofText c.target = Balance.ofText (c.opening r) := by
  have hjoin := Balance.ofText_join_eq_iff (c := c.target) (d := c.opening r)
    (one_lt_length_pieces hc hin)
  rwa [join_pieces] at hjoin

/-- A rule that goes through has got a span that fits. -/
theorem fits_of_apply {out : Text} {sites : List Nat} (h : c.apply t span r = .ok (out, sites)) :
    span.Fits t := by
  by_contra hfit
  rw [apply, if_pos hfit] at h
  cases h

/-- A rule without a target leaves every span alone. -/
theorem apply_of_target_nil (hfit : span.Fits t) (hc : c.target = []) :
    c.apply t span r = .ok (t, []) := by
  rw [apply, if_neg (not_not.2 hfit), if_pos (by simpa using hc)]

/-- A span without a call is left alone. -/
theorem apply_of_not_mem (hfit : span.Fits t) (hc : c.target ≠ [])
    (h : ¬ c.target <:+: span.body t) : c.apply t span r = .ok (t, []) := by
  have hsites : (siteOffsets span.start.toNat (c.opening r).length
      ((span.body t).pieces c.target)).isEmpty = true := by
    rw [pieces_eq_singleton h]
    rfl
  rw [apply, if_neg (not_not.2 hfit), if_neg (by simpa using hc), if_pos hsites]

/-- In a span with a call, the balance check is all that is left. -/
private theorem apply_of_mem (hfit : span.Fits t) (hc : c.target ≠ [])
    (h : c.target <:+: span.body t) :
    c.apply t span r =
      if Balance.ofText (span.body t) ≠ Balance.ofText (c.reroute r (span.body t)) then
        .error (.unbalanced r.name (Balance.ofText (span.body t))
          (Balance.ofText (c.reroute r (span.body t))))
      else
        .ok (span.before t ++ c.reroute r (span.body t) ++ span.after t,
          siteOffsets span.start.toNat (c.opening r).length ((span.body t).pieces c.target)) := by
  have hsites : ¬ (siteOffsets span.start.toNat (c.opening r).length
      ((span.body t).pieces c.target)).isEmpty = true := by
    have := one_lt_length_pieces hc h
    rw [List.isEmpty_iff_length_eq_zero, length_siteOffsets]
    omega
  rw [apply, if_neg (not_not.2 hfit), if_neg (by simpa using hc), if_neg hsites]
  rfl

/-- With an opening of the right balance every call of the span is rerouted. -/
theorem apply_eq_ok (hfit : span.Fits t) (hc : c.target ≠ [])
    (hbalance : Balance.ofText (c.opening r) = Balance.ofText c.target) :
    c.apply t span r =
      .ok (span.before t ++ (c.reroute r (span.body t) ++ span.after t),
        siteOffsets span.start.toNat (c.opening r).length ((span.body t).pieces c.target)) := by
  -- a span without a call is not checked, but rerouting leaves it alone
  by_cases hin : c.target <:+: span.body t
  · have hsame := (ofText_eq_ofText_reroute_iff hc hin).2 hbalance.symm
    rw [apply_of_mem hfit hc hin, if_neg (not_not.2 hsame), List.append_assoc]
  · rw [apply_of_not_mem hfit hc hin, reroute_eq_self hin, pieces_eq_singleton hin,
      Span.before_append_body_append_after hfit]
    rfl

/-- With an opening of another balance no call is rerouted. -/
theorem apply_eq_error (hfit : span.Fits t) (hc : c.target ≠ [])
    (hbalance : Balance.ofText (c.opening r) ≠ Balance.ofText c.target)
    (hin : c.target <:+: span.body t) :
    c.apply t span r =
      .error (.unbalanced r.name (Balance.ofText (span.body t))
        (Balance.ofText (c.reroute r (span.body t)))) := by
  have hdiffer := mt (ofText_eq_ofText_reroute_iff (r := r) hc hin).1 hbalance.symm
  rw [apply_of_mem hfit hc hin, if_pos hdiffer]

/-- When the calls of a span are rerouted, and what comes of it. -/
theorem apply_eq_ok_iff {out : Text} {sites : List Nat} (hfit : span.Fits t) (hc : c.target ≠ []) :
    c.apply t span r = .ok (out, sites) ↔
      (c.target <:+: span.body t → Balance.ofText (c.opening r) = Balance.ofText c.target) ∧
        out = span.before t ++ (c.reroute r (span.body t) ++ span.after t) ∧
        sites = siteOffsets span.start.toNat (c.opening r).length
          ((span.body t).pieces c.target) := by
  by_cases hbalance : Balance.ofText (c.opening r) = Balance.ofText c.target
  · simp only [apply_eq_ok hfit hc hbalance, hbalance, implies_true, true_and, Except.ok.injEq,
      Prod.mk.injEq, eq_comm]
  · by_cases hin : c.target <:+: span.body t
    · simp [apply_eq_error hfit hc hbalance hin, hin, hbalance]
    · -- a balance that is wrong lets a span without a call through
      rw [apply_of_not_mem hfit hc hin, reroute_eq_self hin, pieces_eq_singleton hin,
        Span.before_append_body_append_after hfit]
      simp only [hin, false_implies, true_and, Except.ok.injEq, Prod.mk.injEq, siteOffsets, eq_comm]

/-- When the calls of a span are not rerouted, and with which error. -/
theorem apply_eq_error_iff {e : PatchError} (hfit : span.Fits t) (hc : c.target ≠ []) :
    c.apply t span r = .error e ↔
      c.target <:+: span.body t ∧ Balance.ofText (c.opening r) ≠ Balance.ofText c.target ∧
        e = .unbalanced r.name (Balance.ofText (span.body t))
          (Balance.ofText (c.reroute r (span.body t))) := by
  by_cases hbalance : Balance.ofText (c.opening r) = Balance.ofText c.target
  · simp [apply_eq_ok hfit hc hbalance, hbalance]
  · by_cases hin : c.target <:+: span.body t
    · simp only [apply_eq_error hfit hc hbalance hin, hin, ne_eq, hbalance, not_false_eq_true,
        true_and, Except.error.injEq, eq_comm]
    · simp [apply_of_not_mem hfit hc hin, hin]

end CallRule

end Reroute
