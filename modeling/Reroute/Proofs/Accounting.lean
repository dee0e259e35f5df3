import Mathlib.Tactic.LinearCombination
import Reroute.Proofs.Pass

/-!
# What a pass adds and takes away

A pass puts the definition of the helper into a text, and for every line that it reports an opening
in the place of the target. Nothing else comes in or goes out. So the report accounts for the change
of every measure that adds up: the number of any byte, and the balance of brackets, which only the
definition can change because no other replacement is let through.

That holds of every profile. Units may share a body, and a turn may meet what an earlier one has
written; each turn is accounted for by itself.

## Main definitions

* `Profile.gain` — what the turn of a route adds to a measure, by the lines it reports
* `Profile.Accounted` — the outcomes of routes account for the difference of two texts

## Main results

* `Text.AddsUp.reroute` — what rerouting a body does to a measure
* `Profile.patchUnit_cases` — what the turn of a route does
* `Profile.accounted_patchUnits` — the turns of routes one after the other are accounted for
* `Profile.count_apply` — the report accounts for every byte of the change
-/

namespace Reroute

open Text

/-- Rerouting a body puts an opening in the place of the target at every seam of the pieces. -/
theorem Text.AddsUp.reroute {f : Text → Int} (hf : AddsUp f) (c : CallRule) (r : Route) (b : Text) :
    f (c.reroute r b) =
      f b + (((b.pieces c.target).length : Int) - 1) * (f (c.opening r) - f c.target) := by
  -- the same pieces with another text between them
  have hnew := hf.join (c.opening r) (pieces_ne_nil b c.target)
  have hold := hf.join c.target (pieces_ne_nil b c.target)
  rw [join_pieces] at hold
  rw [CallRule.reroute]
  linear_combination hnew - hold

theorem Text.addsUp_count (b : UInt8) : AddsUp fun t => (t.count b : Int) := by
  intro s t
  simp only [List.count_append]
  push_cast
  rfl

/-- An opening that balances like the target keeps the balance of a body. -/
theorem Balance.ofText_reroute {c : CallRule} {r : Route}
    (h : ofText (c.opening r) = ofText c.target) (b : Text) :
    ofText (c.reroute r b) = ofText b := by
  simp only [ofText, Balance.mk.injEq] at h ⊢
  simp only [(addsUp_excess _ _).reroute c r b, h.1, h.2.1, h.2.2]
  simp

/-- A call rule that goes through leaves the text alone, or it reroutes the span, and then the
opening balances like the target. -/
theorem CallRule.apply_cases {c : CallRule} {r : Route} {t out : Text} {span : Span}
    {sites : List Nat} (h : c.apply t span r = .ok (out, sites)) :
    out = t ∧ sites = [] ∨
      span.Fits t ∧ out = span.before t ++ (c.reroute r (span.body t) ++ span.after t) ∧
        sites.length + 1 = ((span.body t).pieces c.target).length ∧
        Balance.ofText (c.opening r) = Balance.ofText c.target := by
  have hfit := fits_of_apply h
  by_cases hc : c.target = []
  · rw [apply_of_target_nil hfit hc] at h
    cases h
    exact .inl ⟨rfl, rfl⟩
  · obtain ⟨hbalance, rfl, rfl⟩ := (apply_eq_ok_iff hfit hc).1 h
    by_cases hin : c.target <:+: span.body t
    · have hpieces := one_lt_length_pieces hc hin
      refine .inr ⟨hfit, rfl, ?_, hbalance hin⟩
      rw [length_siteOffsets]
      omega
    · rw [reroute_eq_self hin, pieces_eq_singleton hin, Span.before_append_body_append_after hfit]
      exact .inl ⟨rfl, rfl⟩

namespace Profile

variable {p : Profile} {r : Route} {rs : List Route} {t out : Text} {u : UnitOutcome}
  {us : List UnitOutcome}

/-! ### Turns -/

/-- What the turn of a route does: nothing, or a stretch of the text is rerouted, with a line for
every call. -/
theorem patchUnit_cases (h : p.patchUnit r t = .ok (out, u)) :
    u.name = r.name ∧
      (out = t ∧ u.lines = [] ∨
        ∃ before body after, t = before ++ (body ++ after) ∧
          out = before ++ (p.callRule.reroute r body ++ after) ∧
          u.lines.length + 1 = (body.pieces p.target).length ∧
          Balance.ofText (p.callRule.opening r) = Balance.ofText p.target) := by
  rw [patchUnit] at h
  split at h
  · -- a unit that is not declared is passed over, and other trouble is no success
    split at h
    · cases h
      exact ⟨rfl, .inl ⟨rfl, rfl⟩⟩
    · cases h
  · rename_i span hlocate
    split at h
    · cases h
    rename_i sites happly
    cases h
    refine ⟨rfl, (CallRule.apply_cases happly).imp ?_ ?_⟩
    · rintro ⟨rfl, rfl⟩
      exact ⟨rfl, rfl⟩
    · rintro ⟨hfit, rfl, hlength, hbalance⟩
      refine ⟨_, _, _, (Span.before_append_body_append_after hfit).symm, rfl, ?_, hbalance⟩
      rw [outcome, List.length_map]
      exact hlength

/-- What the turn of a route adds to a measure: the opening in the place of the target, once for
every line that it reports. -/
def gain (p : Profile) (f : Text → Int) (r : Route) (u : UnitOutcome) : Int :=
  u.lines.length * (f (p.callRule.opening r) - f p.target)

/-- The outcomes of routes account for the difference of two texts. -/
structure Accounted (p : Profile) (rs : List Route) (us : List UnitOutcome) (t out : Text) :
    Prop where
  names : us.map UnitOutcome.name = rs.map Route.name
  measure : ∀ f, AddsUp f → f out = f t + (List.zipWith (p.gain f) rs us).sum
  balance : Balance.ofText out = Balance.ofText t

theorem accounted_nil (p : Profile) (t : Text) : p.Accounted [] [] t t :=
  ⟨rfl, fun f _ => by simp, rfl⟩

/-- A turn before others. -/
theorem Accounted.cons {final : Text} (h : p.patchUnit r t = .ok (out, u))
    (hrest : p.Accounted rs us out final) : p.Accounted (r :: rs) (u :: us) t final := by
  obtain ⟨hname, hturn⟩ := patchUnit_cases h
  refine ⟨by rw [List.map_cons, List.map_cons, hname, hrest.names], fun f hf => ?_, ?_⟩
  · have hout : f out = f t + p.gain f r u := by
      rcases hturn with ⟨rfl, hlines⟩ | ⟨before, body, after, rfl, rfl, hlines, -⟩
      · simp [gain, hlines]
      · -- before and after the stretch nothing has changed
        have hcount : (u.lines.length : Int) = ((body.pieces p.target).length : Int) - 1 := by omega
        rw [hf, hf, hf, hf, hf.reroute, gain, hcount]
        simp only [callRule]
        ring
    rw [hrest.measure f hf, hout, List.zipWith_cons_cons, List.sum_cons]
    ring
  · rw [hrest.balance]
    rcases hturn with ⟨rfl, -⟩ | ⟨before, body, after, rfl, rfl, -, hbalance⟩
    · rfl
    · simp only [Balance.ofText_append, Balance.ofText_reroute (c := p.callRule) hbalance]

/-- The turns of routes one after the other are accounted for. -/
theorem accounted_patchUnits (h : (p.patchUnits rs t).result = .ok (out, us)) :
    p.Accounted rs us t out := by
  induction rs generalizing t us with
  | nil =>
    cases h
    exact accounted_nil p _
  | cons r rs ih =>
    obtain ⟨out, u, us', hturn, hrest, rfl⟩ := exists_of_patchUnits_cons h
    exact .cons hturn (ih hrest)

/-! ### Passes -/

/-- A pass that succeeds reports one outcome for every route, in the order of the routes, and the
report accounts for the change. Of every byte the new text has as many as the old one, those of the
definition if the helper was installed, and for every line that is reported those of the opening in
the place of those of the target. Only the definition changes the balance of brackets. -/
theorem count_apply {report : Report} (h : (p.apply t).result = .ok (out, report)) :
    report.units.map UnitOutcome.name = p.routes.map Route.name ∧
    (∀ b : UInt8, (out.count b : Int) =
      t.count b + (if report.helperInstalled then (p.helper.definition.count b : Int) else 0) +
        (List.zipWith
          (fun r u => (u.lines.length : Int) *
            ((p.callRule.opening r).count b - p.target.count b))
          p.routes report.units).sum) ∧
    Balance.ofText out =
      if report.helperInstalled then Balance.ofText t + Balance.ofText p.helper.definition
      else Balance.ofText t := by
  rw [apply] at h
  split at h
  · cases h
  rename_i start installed hinstall
  simp only at h
  cases hturns : (p.patchUnits p.routes start).result with
  | error e =>
    rw [hturns] at h
    cases h
  | ok done =>
    rw [hturns] at h
    cases h
    have hpass := accounted_patchUnits hturns
    -- what is left is the difference that the installation makes
    have hstart : (∀ f, AddsUp f →
          f start = f t + if installed then f p.helper.definition else 0) ∧
        Balance.ofText start =
          if installed then Balance.ofText t + Balance.ofText p.helper.definition
          else Balance.ofText t := by
      -- either the helper was there already, or the definition stands behind the anchor
      obtain ⟨before, after, hcut, ⟨rfl, rfl, -⟩ | ⟨rfl, rfl, -⟩⟩ := Helper.install_cases hinstall
      · exact ⟨fun f _ => by simp, by simp⟩
      · rw [eq_append_of_cut? hcut]
        refine ⟨fun f hf => ?_, ?_⟩
        · rw [hf, hf, hf, hf, hf, if_pos rfl]
          ring
        · simp only [Balance.ofText_append, Balance.add_def, if_true, Balance.mk.injEq]
          omega
    refine ⟨hpass.names, fun b => ?_, hpass.balance.trans hstart.2⟩
    -- the number of occurrences of a byte adds up over the parts of a text
    have hcount := hpass.measure _ (addsUp_count b)
    simp only [hstart.1 _ (addsUp_count b)] at hcount
    exact hcount

/-- The signature of the first unit runs on into the body of the second one, and what is written for
the first has a target in it, which the turn of the second meets. Both turns are accounted for. -/
theorem count_apply_nested :
    let p : Profile := ⟨"use A;", ⟨"log", "fn log(", "fn log(x);"⟩, "fn ", "fn ", "ok(",
      [⟨"f", "ok()", "p", "1"⟩, ⟨"g", "c", "q", "2"⟩]⟩
    let t : Text := "use A; fn f(); fn g() \x7bok(1)\x7d"
    let out : Text := "use A;fn log(x); fn f(); fn g() \x7b" ++
      "log(\"f\", \"log(\"g\", \"c\", Some(&q), 2, )\", Some(&p), 1, 1)\x7d"
    p.validate = .ok () ∧
    ∃ report, (p.apply t).result = .ok (out, report) ∧ report.helperInstalled = true ∧
      report.units.map UnitOutcome.lines = [[1], [1]] ∧
      ∀ b : UInt8, (out.count b : Int) =
        t.count b + (p.helper.definition.count b : Int) +
          (List.zipWith
            (fun r u => (u.lines.length : Int) *
              ((p.callRule.opening r).count b - p.target.count b))
            p.routes report.units).sum := by
  intro p t out
  have hresult : (p.apply t).result.toOption.map (fun done => (done.1, done.2.helperInstalled,
      done.2.units.map UnitOutcome.lines)) = some (out, true, [[1], [1]]) := by
    decide +kernel
  obtain ⟨out', report, happly, heq⟩ := exists_of_apply_map hresult
  obtain ⟨rfl, hinstalled, hunits⟩ : out' = out ∧ report.helperInstalled = true ∧
      report.units.map UnitOutcome.lines = [[1], [1]] := by
    simpa only [Prod.mk.injEq] using heq
  refine ⟨by decide +kernel, report, happly, hinstalled, hunits, fun b => ?_⟩
  have hcount := (count_apply happly).2.1 b
  rwa [hinstalled, if_pos rfl] at hcount

end Profile

end Reroute
