import Reroute.Pass
import Reroute.Proofs.Outline
import Reroute.Proofs.Rerouting

/-!
# Passes on outlines

A profile is separated if the marks, the target and the openings that a pass writes keep apart. Then
a turn of a route changes nothing but the body of one section, no turn changes the shape of an
outline, and so every unit is found in the section where it was at the start of the pass, whatever
has been rerouted before.

## Main definitions

* `Profile.Separated` — marks, target and openings keep apart
* `Outline.patch` — a turn of a route on an outline
* `Outline.calls` — the number of calls that the turn of a route meets

## Main results

* `Outline.place?_patch` — a turn moves no declaration
* `Profile.patchUnit_text` — a turn on a text is a turn on its outline
* `Profile.patchUnits_text` — so are the turns of routes one after the other
* `Profile.Separated.apply_text` — and so is a pass
* `Profile.standard_separated` — the standard profile is separated
-/

namespace Reroute

open Text

/-- The text that follows the mark in the declaration of a unit. -/
def Route.label (r : Route) : Text := r.name ++ "("

/-- A profile whose marks, target and openings never share a byte. -/
structure Profile.Separated (p : Profile) : Prop where
  mark : IsMark p.nextUnit
  readable : ∀ r ∈ p.routes, p.landmarks.Readable r.name
  target_ne_nil : p.target ≠ []
  target_apart : ∀ r ∈ p.routes, Apart p.target (p.callRule.opening r)
  mark_apart : ∀ r ∈ p.routes, Apart p.nextUnit (p.callRule.opening r)
  balance : ∀ r ∈ p.routes, Balance.ofText (p.callRule.opening r) = Balance.ofText p.target

namespace Outline

variable {p : Profile} {r : Route} {o : Outline} {mark : Text}

/-- A turn of a route: the body that its unit opens is rerouted. -/
def patch (p : Profile) (o : Outline) (r : Route) : Outline :=
  match o.place? r.label with
  | none => o
  | some j => { o with sections := o.sections.modify j (Section.mapBody (p.callRule.reroute r)) }

/-- The body of the section with an index. -/
def bodyAt (o : Outline) (j : Nat) : Text := (o.sections[j]?.bind Section.body).getD []

/-- The number of calls in the body that a unit opens. -/
def calls (p : Profile) (o : Outline) (r : Route) : Nat :=
  match o.place? r.label with
  | none => 0
  | some j => ((o.bodyAt j).pieces p.target).length - 1

theorem patch_of_none (h : o.place? r.label = none) : o.patch p r = o := by
  rw [patch, h]

private theorem modify_append_cons {α : Type} (f : α → α) (xs : List α) (s : α) (ys : List α) :
    (xs ++ s :: ys).modify xs.length f = xs ++ f s :: ys :=
  List.modifyTailIdx_add (List.modifyHead f) 0 xs (s :: ys)

theorem patch_of_some {xs ys : List Section} {s : Section} (hss : o.sections = xs ++ s :: ys)
    (h : o.place? r.label = some xs.length) :
    o.patch p r = ⟨o.preamble, xs ++ s.mapBody (p.callRule.reroute r) :: ys⟩ := by
  rw [patch, h]
  simp only [hss, modify_append_cons]

/-- A turn changes no shape. -/
theorem map_shape_patch (p : Profile) (o : Outline) (r : Route) :
    (o.patch p r).sections.map Section.shape = o.sections.map Section.shape := by
  cases h : o.place? r.label with
  | none => rw [patch_of_none h]
  | some j =>
    obtain ⟨xs, s, b, ys, hss, rfl, hb⟩ := exists_of_place h
    rw [patch_of_some hss h, hss]
    simp

/-- A turn moves no declaration. -/
@[simp]
theorem place?_patch (p : Profile) (o : Outline) (r : Route) (label : Text) :
    (o.patch p r).place? label = o.place? label := by
  rw [place?, map_shape_patch, place?]

/-- Rerouting brings in no mark. -/
theorem not_infix_reroute (hp : p.Separated) (hr : r ∈ p.routes) {b : Text}
    (hb : ¬ p.nextUnit <:+: b) : ¬ p.nextUnit <:+: p.callRule.reroute r b := by
  rw [CallRule.reroute, infix_join_iff (hp.mark_apart r hr) (pieces_ne_nil b _)]
  rintro ⟨q, hq, hin⟩
  apply hb
  rw [← join_pieces b p.callRule.target]
  exact hin.trans (infix_join_of_mem hq)

/-- A rerouted body has no target left. -/
theorem not_target_infix_reroute (hp : p.Separated) (hr : r ∈ p.routes) (b : Text) :
    ¬ p.target <:+: p.callRule.reroute r b := by
  rw [CallRule.reroute, infix_join_iff (hp.target_apart r hr) (pieces_ne_nil b _)]
  rintro ⟨q, hq, hin⟩
  exact not_infix_of_mem_pieces hp.target_ne_nil hq hin

theorem Fits.patch (hp : p.Separated) (hr : r ∈ p.routes) (ho : o.Fits p.nextUnit) :
    (o.patch p r).Fits p.nextUnit := by
  cases h : o.place? r.label with
  | none => rwa [patch_of_none h]
  | some j =>
    obtain ⟨xs, s, -, ys, hss, rfl, -⟩ := exists_of_place h
    rw [patch_of_some hss h]
    refine ⟨ho.preamble_free, fun s' hs' => ?_⟩
    rw [List.mem_append, List.mem_cons] at hs'
    -- only the section in the middle is new
    rcases hs' with hs' | rfl | hs'
    · exact ho.section_free s' (by simp [hss, hs'])
    · exact Section.not_infix_mapBody hp.mark.ne_nil hp.mark.no_brace
        (ho.section_free s (by simp [hss])) fun b => not_infix_reroute hp hr
    · exact ho.section_free s' (by simp [hss, hs'])

/-- The text after a turn, around the body that is rerouted. -/
theorem text_patch {xs ys : List Section} {s : Section} {b : Text}
    (hss : o.sections = xs ++ s :: ys) (hb : s.body = some b)
    (h : o.place? r.label = some xs.length) :
    (o.patch p r).text mark =
      o.upTo mark xs s ++ (p.callRule.reroute r b ++ sectionsText mark ys) := by
  have hbody := Section.body_mapBody hb (p.callRule.reroute r)
  rw [patch_of_some hss h, text_eq (o := ⟨o.preamble, _⟩) rfl hbody]
  rfl

theorem bodyAt_eq {xs ys : List Section} {s : Section} {b : Text}
    (hss : o.sections = xs ++ s :: ys) (hb : s.body = some b) : o.bodyAt xs.length = b := by
  rw [bodyAt, hss, List.getElem?_append_right (Nat.le_refl _)]
  simp [hb]

theorem calls_eq {xs ys : List Section} {s : Section} {b : Text}
    (hss : o.sections = xs ++ s :: ys) (hb : s.body = some b)
    (h : o.place? r.label = some xs.length) :
    o.calls p r = (b.pieces p.target).length - 1 := by
  rw [calls, h]
  simp only [bodyAt_eq hss hb]

end Outline

namespace Profile

variable {p : Profile} {r : Route} {rs : List Route} {o : Outline}

theorem Separated.locate_text (hp : p.Separated) (hr : r ∈ p.routes) (ho : o.Fits p.nextUnit) :
    p.landmarks.locate r.name (o.text p.nextUnit) =
      match o.place? r.label with
      | none => .error (.unitMissing r.name)
      | some j => .ok (o.span p.nextUnit j) :=
  Outline.locate_text (l := p.landmarks) hp.mark (hp.readable r hr) ho

/-- A turn of a route on a text is its turn on the outline. It always succeeds, and reports as many
lines as there were calls. -/
theorem patchUnit_text (hp : p.Separated) (hr : r ∈ p.routes) (ho : o.Fits p.nextUnit) :
    ∃ u, p.patchUnit r (o.text p.nextUnit) = .ok ((o.patch p r).text p.nextUnit, u) ∧
      u.lines.length = o.calls p r := by
  have hlocate := hp.locate_text hr ho
  cases h : o.place? r.label with
  | none =>
    rw [h] at hlocate
    refine ⟨⟨r.name, .skipped, []⟩, ?_, ?_⟩
    · rw [Outline.patch_of_none h, patchUnit, hlocate]
      rfl
    · rw [Outline.calls, h]
      rfl
  | some j =>
    obtain ⟨xs, s, b, ys, hss, rfl, hb⟩ := exists_of_place h
    -- the span that is found is the body of a section, and what is written there is rerouted
    have happly := CallRule.apply_eq_ok (c := p.callRule) (r := r)
      (Span.fits_append (o.upTo p.nextUnit xs s) b (sectionsText p.nextUnit ys))
      hp.target_ne_nil (hp.balance r hr)
    simp only [Span.before_append, Span.body_append, Span.after_append] at happly
    rw [h] at hlocate
    simp only [Outline.span_eq hss hb] at hlocate
    have hstep : p.patchUnit r (o.text p.nextUnit) =
        .ok ((o.patch p r).text p.nextUnit, outcome r ((o.patch p r).text p.nextUnit)
          (CallRule.siteOffsets (o.upTo p.nextUnit xs s).length (p.callRule.opening r).length
            (b.pieces p.target))) := by
      rw [patchUnit, hlocate, Outline.text_patch hss hb h]
      simp only [Outline.text_eq hss hb, happly]
      rfl
    refine ⟨_, hstep, ?_⟩
    rw [Outline.calls_eq hss hb h, outcome, List.length_map, CallRule.length_siteOffsets]

/-- The number of calls that the turns of routes meet. -/
def callsOf (p : Profile) : List Route → Outline → Nat
  | [], _ => 0
  | r :: rs, o => o.calls p r + p.callsOf rs (o.patch p r)

/-- The turns of routes on a text are their turns on the outline. They always succeed, and report
as many lines as there were calls. -/
theorem patchUnits_text (hp : p.Separated) (hrs : ∀ r ∈ rs, r ∈ p.routes)
    (ho : o.Fits p.nextUnit) :
    ∃ us, (p.patchUnits rs (o.text p.nextUnit)).result =
        .ok ((rs.foldl (Outline.patch p) o).text p.nextUnit, us) ∧
      us.foldr (fun u n => u.lines.length + n) 0 = p.callsOf rs o := by
  induction rs generalizing o with
  | nil => exact ⟨[], rfl, rfl⟩
  | cons r rs ih =>
    -- the first turn leaves an outline that fits, so the others run on it
    have hr := hrs r List.mem_cons_self
    obtain ⟨u, hstep, hlines⟩ := patchUnit_text hp hr ho
    obtain ⟨us, hrun, hsum⟩ := ih (fun r' h => hrs r' (List.mem_cons_of_mem r h)) (ho.patch hp hr)
    refine ⟨u :: us, ?_, ?_⟩
    · rw [patchUnits, hstep]
      simp only [hrun, Except.map, List.foldl_cons]
    · rw [List.foldr_cons, hsum, hlines, callsOf]

/-- Throughout a pass the outline fits. -/
theorem fits_foldl_patch (hp : p.Separated) (hrs : ∀ r ∈ rs, r ∈ p.routes)
    (ho : o.Fits p.nextUnit) : (rs.foldl (Outline.patch p) o).Fits p.nextUnit := by
  induction rs generalizing o with
  | nil => exact ho
  | cons r rs ih =>
    exact ih (fun r' h => hrs r' (List.mem_cons_of_mem r h))
      (ho.patch hp (hrs r List.mem_cons_self))

/-- A pass installs the helper and then takes its turns on the outline. It fails only if the helper
cannot be installed. -/
theorem Separated.apply_text (hp : p.Separated) {t : Text} {installed : Bool}
    (h : p.helper.install p.anchor t = .ok (o.text p.nextUnit, installed))
    (ho : o.Fits p.nextUnit) :
    ∃ us, (p.apply t).result =
        .ok ((p.routes.foldl (Outline.patch p) o).text p.nextUnit,
          ⟨[], installed, us, .ofText t,
            .ofText ((p.routes.foldl (Outline.patch p) o).text p.nextUnit)⟩) ∧
      us.foldr (fun u n => u.lines.length + n) 0 = p.callsOf p.routes o := by
  obtain ⟨us, hrun, hsum⟩ := patchUnits_text hp (fun _ hr => hr) ho
  refine ⟨us, ?_, hsum⟩
  rw [apply, h]
  simp only [hrun, Except.map]

/-- The turns of routes that go through: a first one, and the others on the text that it leaves. -/
theorem exists_of_patchUnits_cons {t final : Text} {us : List UnitOutcome}
    (h : (p.patchUnits (r :: rs) t).result = .ok (final, us)) :
    ∃ out u us', p.patchUnit r t = .ok (out, u) ∧ (p.patchUnits rs out).result = .ok (final, us') ∧
      us = u :: us' := by
  rw [patchUnits] at h
  split at h
  · cases h
  rename_i out u hturn
  simp only at h
  cases hrest : (p.patchUnits rs out).result with
  | error e =>
    rw [hrest] at h
    cases h
  | ok done =>
    rw [hrest] at h
    cases h
    exact ⟨out, u, done.2, hturn, hrest, rfl⟩

/-- A pass that succeeds has installed the helper, and its turns have gone through. -/
theorem exists_patchUnits_of_apply {t out : Text} {report : Report}
    (h : (p.apply t).result = .ok (out, report)) :
    ∃ start, p.helper.install p.anchor t = .ok (start, report.helperInstalled) ∧
      (p.patchUnits p.routes start).result = .ok (out, report.units) := by
  rw [apply] at h
  split at h
  · cases h
  rename_i start installed hinstall
  simp only at h
  cases hturns : (p.patchUnits p.routes start).result with
  | error e =>
    rw [hturns] at h
    cases h
  | ok done =>
    rw [hturns] at h
    cases h
    exact ⟨start, hinstall, hturns⟩

theorem exists_install_of_apply {t out : Text} {report : Report}
    (h : (p.apply t).result = .ok (out, report)) :
    ∃ start installed, p.helper.install p.anchor t = .ok (start, installed) := by
  obtain ⟨start, hinstall, -⟩ := exists_patchUnits_of_apply h
  exact ⟨start, _, hinstall⟩

/-- A pass of which something is known has succeeded. -/
theorem exists_of_apply_map {α : Type} {f : Text × Report → α} {a : α} {t : Text}
    (h : (p.apply t).result.toOption.map f = some a) :
    ∃ out report, (p.apply t).result = .ok (out, report) ∧ f (out, report) = a := by
  cases hresult : (p.apply t).result with
  | error e =>
    rw [hresult] at h
    exact absurd h (by simp [Except.toOption])
  | ok done =>
    rw [hresult] at h
    exact ⟨done.1, done.2, rfl, Option.some.inj h⟩

/-! ### The standard profile -/

-- one evaluation for all that concerns a route: unfolding the string literals is what costs
private theorem standard_routes :
    ∀ r ∈ standard.routes,
      (IsLabel standard.nextUnit (r.name ++ "(") ∧ r.name ≠ [] ∧
        IsAscii (standard.nextUnit ++ r.name)) ∧
      Apart standard.target (standard.callRule.opening r) ∧
      Apart standard.nextUnit (standard.callRule.opening r) ∧
      Balance.ofText (standard.callRule.opening r) = Balance.ofText standard.target ∧
      newline ∉ standard.callRule.opening r := by
  decide +kernel

theorem standard_separated : standard.Separated where
  mark := by decide +kernel
  readable r hr := by
    obtain ⟨⟨hlabel, hnamed, hascii⟩, -⟩ := standard_routes r hr
    exact ⟨rfl, hlabel, hnamed, hascii⟩
  target_ne_nil := by decide +kernel
  target_apart r hr := (standard_routes r hr).2.1
  mark_apart r hr := (standard_routes r hr).2.2.1
  balance r hr := (standard_routes r hr).2.2.2.1

/-- The openings of the standard profile have no newline. -/
theorem newline_not_mem_standard_opening {r : Route} (hr : r ∈ standard.routes) :
    newline ∉ standard.callRule.opening r :=
  (standard_routes r hr).2.2.2.2

end Profile

end Reroute
