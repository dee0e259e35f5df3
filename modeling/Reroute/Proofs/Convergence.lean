import Reroute.Proofs.Pass

/-!
# When rerouting converges

Rerouting the calls of a span is meant to leave none: another turn of any route should find nothing
to do. That an accepted profile keeps its target out of the helper's name and of two arguments of
its routes is not enough. The target can stand in the name or the category of a route, or arise
where the parts of an opening meet each other or the text around them. What is enough, and needed,
is that an opening is seamless. To know this, one call and as much text around it as the target is
long are all that has to be looked at.

## Main definitions

* `Seamless` — a replacement that brings in no target, whatever stands around it
* `Span.grown` — a span after the text in it has changed

## Main results

* `Seamless.not_infix_join_pieces` — pieces joined by a seamless replacement have no target
* `Profile.converges_iff_seamless` — rerouting converges just for the seamless openings
-/

namespace Reroute

open Text

/-- Whether no `target` shows up where `c` takes the place of one. Before it stands the beginning of
a target that could not be taken for a call earlier on, after it the end of one. -/
def Seamless (target c : Text) : Prop :=
  ∀ x ∈ target.inits, ∀ y ∈ target.tails, x ≠ target → y ≠ target →
    ¬ target <:+: x ++ target.dropLast → ¬ target <:+: x ++ (c ++ y)

instance (target c : Text) : Decidable (Seamless target c) :=
  inferInstanceAs (Decidable (∀ x ∈ target.inits, ∀ y ∈ target.tails, x ≠ target → y ≠ target →
    ¬ target <:+: x ++ target.dropLast → ¬ target <:+: x ++ (c ++ y)))

namespace Seamless

variable {target c x y t : Text}

private theorem ne_append_right {l r : Text} (hl : l ≠ []) : r ≠ l ++ r := by
  intro h
  exact hl (List.append_left_eq_self.1 h.symm)

private theorem ne_append_left {l r : Text} (hr : r ≠ []) : l ≠ l ++ r := by
  intro h
  exact hr (List.append_right_eq_self.1 h.symm)

/-- A target that shows up around a replacement shows up with no more than its own beginning before
the replacement and its own end after it. -/
theorem exists_parts (hx : ¬ target <:+: x) (hy : ¬ target <:+: y)
    (h : target <:+: x ++ (c ++ y)) :
    ∃ l r, l <+: target ∧ r <:+ target ∧ l ≠ target ∧ r ≠ target ∧ l <:+ x ∧
      target <:+: l ++ (c ++ r) := by
  have hne : target ≠ [] := by
    rintro rfl
    exact hy List.nil_infix
  rcases List.infix_append_iff_ne_nil.1 h with hin | hin | ⟨l, r, hl, hr, rfl, hlx, hpre⟩
  · exact absurd hin hx
  · rcases List.infix_append_iff_ne_nil.1 hin with hin | hin | ⟨l, r, hl, hr, rfl, hlc, -⟩
    · -- inside of the replacement
      exact ⟨[], [], List.nil_prefix, List.nil_suffix, hne.symm, hne.symm, List.nil_suffix,
        by simpa using hin⟩
    · exact absurd hin hy
    · -- across its end
      refine ⟨[], r, List.nil_prefix, List.suffix_append l r, hne.symm, ne_append_right hl,
        List.nil_suffix, ?_⟩
      obtain ⟨k, rfl⟩ := hlc
      rw [List.nil_append, List.append_assoc]
      exact (List.suffix_append k (l ++ r)).isInfix
  · rcases List.prefix_or_prefix_of_prefix hpre (List.prefix_append c y) with hrc | ⟨z, rfl⟩
    · -- across its beginning
      refine ⟨l, [], List.prefix_append l r, List.nil_suffix, ne_append_left hr, hne.symm, hlx, ?_⟩
      rw [List.append_nil]
      exact ((List.prefix_append_right_inj l).2 hrc).isInfix
    · -- around all of it
      refine ⟨l, z, List.prefix_append l _, ?_, ne_append_left hr, ?_, hlx, List.infix_rfl⟩
      · rw [← List.append_assoc]
        exact List.suffix_append _ z
      · rw [← List.append_assoc]
        exact ne_append_right (by simp [hl])

/-- A seamless replacement brings in no target between texts that have none. -/
theorem not_infix_append (h : Seamless target c) (hx : ¬ target <:+: x ++ target.dropLast)
    (hy : ¬ target <:+: y) : ¬ target <:+: x ++ (c ++ y) := by
  intro hin
  have hx' : ¬ target <:+: x := fun hx' => hx (List.infix_append_of_infix_left hx')
  obtain ⟨l, r, hl, hr, hlne, hrne, ⟨k, rfl⟩, hlr⟩ := exists_parts hx' hy hin
  refine h l ((List.mem_inits _ _).2 hl) r ((List.mem_tails _ _).2 hr) hlne hrne ?_ hlr
  intro hfirst
  refine hx ?_
  rw [List.append_assoc]
  exact List.infix_append_of_infix_right hfirst

/-- A replacement that never shares a byte with the target is seamless. -/
theorem of_apart (h : Apart target c) : Seamless target c := by
  intro x hx y hy hxne hyne _ hin
  rcases (infix_insert_iff h).1 hin with hin | hin
  · exact hxne (((List.mem_inits _ _).1 hx).eq_of_length_le hin.length_le)
  · exact hyne (((List.mem_tails _ _).1 hy).eq_of_length_le hin.length_le)

/-- Pieces joined by a seamless replacement have no target. -/
theorem not_infix_join_pieces (h : Seamless target c) (ht : target ≠ []) (t : Text) :
    ¬ target <:+: join c (t.pieces target) := by
  induction t using cut_induction ht with
  | free t hfree => rwa [pieces_eq_singleton hfree, join_singleton]
  | cut t x y hcut ih =>
    -- the replacement has a seam with the piece before it and one with the pieces that are left
    rw [pieces_of_cut? ht hcut, join_cons c x (pieces_ne_nil y target)]
    exact h.not_infix_append (not_infix_of_cut? hcut ht) ih

end Seamless

/-- The span that covers what a span of `t` covered, after the text in it has changed and `t` has
become `out`. -/
def Span.grown (s : Span) (t out : Text) : Span := ⟨s.start, s.stop + (out.length - t.length)⟩

/-- A span grows to the second of the three texts that the new text consists of. -/
theorem Span.grown_eq {s : Span} {t : Text} (h : s.Fits t) (b : Text) :
    s.grown t (s.before t ++ (b ++ s.after t)) =
      ⟨(s.before t).length, ((s.before t).length + b.length : Nat)⟩ := by
  obtain ⟨hstart, hle, hstop⟩ := h
  simp only [grown, before, after, List.length_append, List.length_take, List.length_drop,
    Span.mk.injEq]
  omega

namespace CallRule

variable {c : CallRule} {r : Route} {t out : Text} {span : Span} {sites : List Nat}

/-- Rerouting the calls of a span for a route leaves no target in it, so that it is the last time
that something changes there. -/
def Converges (c : CallRule) (r : Route) : Prop :=
  ∀ t span out sites, span.Fits t → c.apply t span r = .ok (out, sites) →
    ¬ c.target <:+: (span.grown t out).body out ∧
      ∀ r', c.apply out (span.grown t out) r' = .ok (out, [])

/-- What a turn that succeeds has done: it has rerouted the span, and where there was something to
reroute, the balance was right. -/
theorem eq_of_apply (hc : c.target ≠ []) (hfit : span.Fits t)
    (h : c.apply t span r = .ok (out, sites)) :
    out = span.before t ++ (c.reroute r (span.body t) ++ span.after t) ∧
      (c.target <:+: span.body t → Balance.ofText (c.opening r) = Balance.ofText c.target) := by
  obtain ⟨hbalance, hout, -⟩ := (apply_eq_ok_iff hfit hc).1 h
  exact ⟨hout, hbalance⟩

/-- If the opening is seamless, or fails the balance check, rerouting converges. -/
theorem converges_of_seamless (hc : c.target ≠ [])
    (h : Balance.ofText (c.opening r) = Balance.ofText c.target →
      Seamless c.target (c.opening r)) : c.Converges r := by
  intro t span out sites hfit happly
  obtain ⟨rfl, hbalance⟩ := eq_of_apply hc hfit happly
  -- a balance that is wrong only lets spans through that have no call
  have hfree : ¬ c.target <:+: c.reroute r (span.body t) := by
    by_cases hin : c.target <:+: span.body t
    · exact (h (hbalance hin)).not_infix_join_pieces hc (span.body t)
    · rwa [reroute_eq_self hin]
  rw [Span.grown_eq hfit]
  refine ⟨by rwa [Span.body_append], fun r' => ?_⟩
  exact apply_of_not_mem (Span.fits_append _ _ _) hc (by rwa [Span.body_append])

/-- A text around a single call that becomes any given seam. -/
theorem exists_apply_eq (hc : c.target ≠ [])
    (hbalance : Balance.ofText (c.opening r) = Balance.ofText c.target) {x y : Text}
    (hx : ¬ c.target <:+: x ++ c.target.dropLast) (hy : ¬ c.target <:+: y) :
    ∃ t span sites, span.Fits t ∧ c.apply t span r = .ok (x ++ (c.opening r ++ y), sites) ∧
      (span.grown t (x ++ (c.opening r ++ y))).body (x ++ (c.opening r ++ y)) =
        x ++ (c.opening r ++ y) := by
  have hcut : cut? (x ++ (c.target ++ y)) c.target = some (x, y) :=
    (cut?_eq_some_iff hc).2 ⟨rfl, hx⟩
  have hreroute : c.reroute r (x ++ (c.target ++ y)) = x ++ (c.opening r ++ y) := by
    rw [reroute, pieces_of_cut? hc hcut, pieces_eq_singleton hy, join_cons _ x (by simp),
      join_singleton]
  -- the span is the whole text
  have hfit := Span.fits_append [] (x ++ (c.target ++ y)) []
  have happly := apply_eq_ok (r := r) hfit hc hbalance
  have hgrown := Span.grown_eq hfit (x ++ (c.opening r ++ y))
  simp only [Span.before_append, Span.body_append, Span.after_append, hreroute] at happly hgrown
  have hbody := Span.body_append [] (x ++ (c.opening r ++ y)) []
  rw [← hgrown] at hbody
  simp only [List.nil_append, List.append_nil] at happly hbody hfit
  exact ⟨_, _, _, hfit, happly, hbody⟩

end CallRule

namespace Profile

variable {p : Profile}

theorem target_ne_nil_of_validate (h : p.validate = .ok ()) : p.target ≠ [] := by
  intro htarget
  simp only [validate, htarget, List.isEmpty_nil, if_true] at h
  split_ifs at h

/-- For the routes of an accepted profile, and any others, rerouting converges just if the openings
that the balance check lets through are seamless. -/
theorem converges_iff_seamless (h : p.validate = .ok ()) (r : Route) :
    p.callRule.Converges r ↔
      (Balance.ofText (p.callRule.opening r) = Balance.ofText p.target →
        Seamless p.target (p.callRule.opening r)) := by
  have hne := target_ne_nil_of_validate h
  constructor
  · -- a seam that is not clean is one that some call really gets
    intro hconverges hbalance x hx y hy hxne hyne hfirst hin
    have hy' : ¬ p.target <:+: y := by
      intro hin'
      have hsuffix := (List.mem_tails _ _).1 hy
      exact hyne (hsuffix.eq_of_length_le hin'.length_le)
    obtain ⟨t, span, sites, hfit, happly, hbody⟩ :=
      CallRule.exists_apply_eq (c := p.callRule) hne hbalance hfirst hy'
    refine (hconverges t span _ sites hfit happly).1 ?_
    rw [hbody]
    exact hin
  · exact CallRule.converges_of_seamless hne

/-- All routes of the standard profile converge. -/
theorem standard_converges :
    standard.validate = .ok () ∧ ∀ r ∈ standard.routes, standard.callRule.Converges r := by
  have h : standard.validate = .ok () := by decide +kernel
  refine ⟨h, fun r hr => (converges_iff_seamless h r).2 fun _ => ?_⟩
  exact Seamless.of_apart (standard_separated.target_apart r hr)

/-- A profile is accepted although the category of its route has the target in it: the next turn
over a rerouted call would reroute the category. -/
theorem validate_ok_of_target_in_category :
    let r : Route := ⟨"read_file", "CallToolResult::success()", "p", "\"s\""⟩
    let p : Profile := { standard with routes := [r] }
    let t : Text := "CallToolResult::success(1)"
    let out : Text :=
      "success_log(\"read_file\", \"CallToolResult::success()\", Some(&p), \"s\", 1)"
    p.validate = .ok () ∧ r ∈ p.routes ∧ (⟨0, t.length⟩ : Span).Fits t ∧
      p.callRule.apply t ⟨0, t.length⟩ r = .ok (out, [0]) ∧
      p.target <:+: ((⟨0, t.length⟩ : Span).grown t out).body out ∧
      p.callRule.apply out ((⟨0, t.length⟩ : Span).grown t out) r ≠ .ok (out, []) := by
  decide +kernel

end Profile

end Reroute
