import Reroute.Proofs.Pass

/-!
# Passes settle

A body that has been rerouted has no target left, and no later turn brings one back. The anchor and
the mark of the helper's presence never overlap with anything that a turn replaces, so they stay in
the text. A second pass therefore finds the helper and no calls, and changes nothing.

## Main definitions

* `Profile.Lasting` — texts that a pass does not take away
* `Profile.passes` — passes one after the other

## Main results

* `Outline.calls_foldl_patch` — the turns of routes leave none of their calls behind
* `Outline.infix_text_patch` — a lasting text stays
* `Profile.standard_apply_idempotent` — one pass of the standard profile is as good as many
-/

namespace Reroute

open Text

open Landmarks (brace)

/-! ### No call is left -/

namespace Outline

variable {p : Profile} {r r' : Route} {rs : List Route} {o : Outline}

/-- A turn reroutes the body that its unit opens and leaves the others alone. -/
theorem bodyAt_patch (p : Profile) (o : Outline) (r : Route) (j : Nat) :
    (o.patch p r).bodyAt j =
      if o.place? r.label = some j then p.callRule.reroute r (o.bodyAt j) else o.bodyAt j := by
  cases h : o.place? r.label with
  | none => rw [patch_of_none h, if_neg (by simp)]
  | some i =>
    obtain ⟨xs, s, b, ys, hss, rfl, hb⟩ := exists_of_place h
    by_cases hj : xs.length = j
    · subst hj
      have hbody := Section.body_mapBody hb (p.callRule.reroute r)
      rw [if_pos rfl, patch_of_some hss h, bodyAt_eq (o := ⟨_, _⟩) rfl hbody, bodyAt_eq hss hb]
    · rw [if_neg (by simpa using hj), patch, h]
      simp only [bodyAt, List.getElem?_modify, if_neg hj]
      simp

/-- The turn of a route leaves none of its calls behind. -/
theorem calls_patch_self (hp : p.Separated) (hr : r ∈ p.routes) (o : Outline) :
    (o.patch p r).calls p r = 0 := by
  rw [calls, place?_patch]
  cases h : o.place? r.label with
  | none => rfl
  | some j =>
    simp only [bodyAt_patch, h, if_true]
    rw [pieces_eq_singleton (not_target_infix_reroute hp hr _), List.length_singleton]

/-- No turn brings a call back. -/
theorem calls_patch_eq_zero (hp : p.Separated) (hr : r ∈ p.routes) (h : o.calls p r' = 0) :
    (o.patch p r).calls p r' = 0 := by
  rw [calls, place?_patch]
  rw [calls] at h
  cases hplace : o.place? r'.label with
  | none => rfl
  | some j =>
    rw [hplace] at h
    simp only [bodyAt_patch]
    split
    · rw [pieces_eq_singleton (not_target_infix_reroute hp hr _), List.length_singleton]
    · exact h

theorem calls_foldl_patch_eq_zero (hp : p.Separated) (hrs : ∀ r ∈ rs, r ∈ p.routes)
    (h : o.calls p r' = 0) : (rs.foldl (patch p) o).calls p r' = 0 := by
  induction rs generalizing o with
  | nil => exact h
  | cons r rs ih =>
    exact ih (fun r hr => hrs r (List.mem_cons_of_mem _ hr))
      (calls_patch_eq_zero hp (hrs r List.mem_cons_self) h)

/-- The turns of routes leave none of their calls behind. -/
theorem calls_foldl_patch (hp : p.Separated) (hrs : ∀ r ∈ rs, r ∈ p.routes) (o : Outline) :
    ∀ r ∈ rs, (rs.foldl (patch p) o).calls p r = 0 := by
  induction rs generalizing o with
  | nil => simp
  | cons r rs ih =>
    have hrs' : ∀ r ∈ rs, r ∈ p.routes := fun r hr => hrs r (List.mem_cons_of_mem _ hr)
    intro r' hr'
    rw [List.foldl_cons]
    -- the calls of the first route are gone after its turn and stay away
    rcases List.mem_cons.1 hr' with rfl | hr'
    · exact calls_foldl_patch_eq_zero hp hrs' (calls_patch_self hp (hrs r' List.mem_cons_self) o)
    · exact ih hrs' (o.patch p r) r' hr'

/-- A turn that meets no call changes nothing. -/
theorem patch_eq_self (hp : p.Separated) (h : o.calls p r = 0) : o.patch p r = o := by
  cases hplace : o.place? r.label with
  | none => exact patch_of_none hplace
  | some j =>
    obtain ⟨xs, s, b, ys, hss, rfl, hb⟩ := exists_of_place hplace
    rw [calls_eq hss hb hplace] at h
    have hfree : ¬ p.target <:+: b := by
      intro hin
      have := one_lt_length_pieces hp.target_ne_nil hin
      omega
    have hsame : s.mapBody (p.callRule.reroute r) = s := by
      have hbody : s.body.map (p.callRule.reroute r) = s.body := by
        rw [hb, Option.map_some, CallRule.reroute_eq_self hfree]
      rw [Section.mapBody]
      simp only [hbody]
    rw [patch_of_some hss hplace, hsame, ← hss]

/-- So do turns that meet none, one after the other. -/
theorem foldl_patch_eq_self (hp : p.Separated) (h : ∀ r ∈ rs, o.calls p r = 0) :
    rs.foldl (patch p) o = o ∧ p.callsOf rs o = 0 := by
  induction rs with
  | nil => exact ⟨rfl, rfl⟩
  | cons r rs ih =>
    have hr := h r List.mem_cons_self
    obtain ⟨hrest, hcalls⟩ := ih fun r' hr' => h r' (List.mem_cons_of_mem r hr')
    rw [List.foldl_cons, Profile.callsOf, patch_eq_self hp hr]
    exact ⟨hrest, by rw [hr, hcalls]⟩

end Outline

/-! ### What stays in the text -/

/-- A text that no turn takes away: it has no brace, the mark does not start in it, and it never
shares a byte with the target. -/
structure Profile.Lasting (p : Profile) (w : Text) : Prop where
  ne_nil : w ≠ []
  no_brace : brace ∉ w
  no_mark : p.nextUnit.head?.all (· ∉ w) = true
  apart : Apart w p.target

instance (p : Profile) (w : Text) : Decidable (p.Lasting w) :=
  decidable_of_iff
    (w ≠ [] ∧ brace ∉ w ∧ p.nextUnit.head?.all (· ∉ w) = true ∧ Apart w p.target)
    ⟨fun ⟨h₁, h₂, h₃, h₄⟩ => ⟨h₁, h₂, h₃, h₄⟩, fun ⟨h₁, h₂, h₃, h₄⟩ => ⟨h₁, h₂, h₃, h₄⟩⟩

namespace Outline

variable {p : Profile} {r : Route} {rs : List Route} {o : Outline} {w x b : Text}

/-- What lasts and occurs around a body and in it, occurs before its brace, in it or after it. -/
private theorem infix_cases (hp : p.Separated) (hw : p.Lasting w) {ys : List Section}
    (h : w <:+: x ++ brace :: (b ++ sectionsText p.nextUnit ys)) :
    w <:+: x ∨ w <:+: b ∨ w <:+: sectionsText p.nextUnit ys := by
  rw [infix_append_cons_iff hw.ne_nil hw.no_brace] at h
  refine h.imp_right fun hin => ?_
  cases ys with
  | nil => exact .inl (by simpa using hin)
  | cons s ys =>
    -- the mark need not be apart from `w`: the helper's mark of presence may start with its end
    obtain ⟨m, mark', hmark⟩ := List.exists_cons_of_ne_nil hp.mark.ne_nil
    rw [sectionsText_cons, hmark, List.cons_append] at hin ⊢
    rw [infix_append_cons_iff hw.ne_nil (by simpa [hmark] using hw.no_mark)] at hin
    exact hin.imp_right fun htail => htail.trans (List.suffix_cons m _).isInfix

/-- Rerouting a body takes nothing away that lasts. -/
theorem infix_reroute (hw : p.Lasting w) (h : w <:+: b) (r : Route) :
    w <:+: p.callRule.reroute r b := by
  rw [← join_pieces b p.target, infix_join_iff hw.apart (pieces_ne_nil b _)] at h
  obtain ⟨q, hq, hin⟩ := h
  exact hin.trans (infix_join_of_mem hq)

/-- A turn takes nothing away that lasts. -/
theorem infix_text_patch (hp : p.Separated) (hw : p.Lasting w)
    (h : w <:+: o.text p.nextUnit) (r : Route) : w <:+: (o.patch p r).text p.nextUnit := by
  cases hplace : o.place? r.label with
  | none => rwa [patch_of_none hplace]
  | some j =>
    obtain ⟨xs, s, b, ys, hss, rfl, hb⟩ := exists_of_place hplace
    have hupTo : o.upTo p.nextUnit xs s =
        (o.preamble ++ (sectionsText p.nextUnit xs ++ (p.nextUnit ++ s.head))) ++ [brace] := by
      simp [upTo]
    rw [text_eq hss hb, hupTo, List.append_assoc, List.singleton_append] at h
    rw [text_patch hss hb hplace, hupTo, List.append_assoc, List.singleton_append]
    rcases infix_cases hp hw h with hbefore | hbody | hafter
    · exact List.infix_append_of_infix_left hbefore
    · refine List.infix_append_of_infix_right (List.infix_cons ?_)
      exact List.infix_append_of_infix_left (infix_reroute hw hbody r)
    · refine List.infix_append_of_infix_right (List.infix_cons ?_)
      exact List.infix_append_of_infix_right hafter

theorem infix_text_foldl_patch (hp : p.Separated) (hw : p.Lasting w)
    (h : w <:+: o.text p.nextUnit) (rs : List Route) :
    w <:+: (rs.foldl (patch p) o).text p.nextUnit := by
  induction rs generalizing o with
  | nil => exact h
  | cons r rs ih => exact ih (infix_text_patch hp hw h r)

end Outline

/-! ### Installing the helper again -/

namespace Helper

variable {h : Helper} {anchor t start : Text} {installed : Bool}

/-- A text that has taken the helper has its anchor and the mark of its presence. -/
theorem infix_of_install (hdefinition : h.ident <:+: h.definition)
    (hinstall : h.install anchor t = .ok (start, installed)) :
    anchor <:+: start ∧ h.ident <:+: start := by
  obtain ⟨before, after, hcut, ⟨-, rfl, hident⟩ | ⟨-, rfl, -⟩⟩ := install_cases hinstall
  · have hanchor := List.infix_append' before anchor after
    rw [← eq_append_of_cut? hcut] at hanchor
    exact ⟨hanchor, includes_iff.1 hident⟩
  · refine ⟨List.infix_append' before anchor _, hdefinition.trans ?_⟩
    rw [← List.append_assoc]
    exact List.infix_append' _ h.definition after

/-- The helper is installed once. -/
theorem install_eq_self (hanchor : anchor ≠ []) (hident : h.ident ≠ [])
    (ha : anchor <:+: t) (hi : h.ident <:+: t) : h.install anchor t = .ok (t, false) := by
  obtain ⟨⟨before, after⟩, hcut⟩ := Option.isSome_iff_exists.1 (includes_iff.2 ha)
  have hhere : (!h.ident.isEmpty && t.includes h.ident) = true := by
    simpa [includes_iff.2 hi] using hident
  rw [install, if_neg (by simpa using hanchor), hcut]
  simp only [hhere, if_true]

end Helper

namespace Profile

/-- Passes one after the other, each over the text that the one before it has left. -/
def passes (p : Profile) : Nat → Text → Except PatchError Text
  | 0, t => .ok t
  | n + 1, t => (p.apply t).result.bind fun done => p.passes n done.1

variable {p : Profile} {t out : Text}

/-- If a pass leaves a text alone, so do any number of passes. -/
theorem passes_of_apply_eq_self {report : Report}
    (h : (p.apply t).result = .ok (t, report)) (n : Nat) : p.passes n t = .ok t := by
  induction n with
  | zero => rfl
  | succ n ih =>
    rw [passes, h]
    exact ih

/-- After a pass there is nothing left to do, if the anchor and the helper's mark last. -/
theorem Separated.apply_again (hp : p.Separated) (hanchor : p.Lasting p.anchor)
    (hident : p.Lasting p.helper.ident) (hdefinition : p.helper.ident <:+: p.helper.definition)
    {report : Report} (h : (p.apply t).result = .ok (out, report)) :
    ∃ us, (p.apply out).result = .ok (out, ⟨[], false, us, .ofText out, .ofText out⟩) ∧
      us.foldr (fun u n => u.lines.length + n) 0 = 0 := by
  obtain ⟨start, installed, hinstall⟩ := exists_install_of_apply h
  obtain ⟨o, ho, rfl⟩ := Outline.exists_text_eq hp.mark start
  obtain ⟨us, happly, -⟩ := hp.apply_text hinstall ho
  rw [h, Except.ok.injEq, Prod.mk.injEq] at happly
  obtain ⟨rfl, -⟩ := happly
  -- the second pass finds the helper, and each of its turns an outline without calls
  have hkept := Helper.infix_of_install hdefinition hinstall
  have hinstall' := Helper.install_eq_self hanchor.ne_nil hident.ne_nil
    (Outline.infix_text_foldl_patch hp hanchor hkept.1 p.routes)
    (Outline.infix_text_foldl_patch hp hident hkept.2 p.routes)
  obtain ⟨us', happly', hsum⟩ := hp.apply_text hinstall' (fits_foldl_patch hp (fun _ hr => hr) ho)
  obtain ⟨hsame, hcalls⟩ := Outline.foldl_patch_eq_self hp
    (Outline.calls_foldl_patch hp (fun _ hr => hr) o)
  rw [hsame] at happly'
  rw [hcalls] at hsum
  exact ⟨us', happly', hsum⟩

/-- Over a text that a pass of the standard profile has left, another pass finds the helper and no
call, and changes nothing. One pass does what any number of them do. -/
theorem standard_apply_idempotent {report : Report}
    (h : (standard.apply t).result = .ok (out, report)) :
    (∃ again, (standard.apply out).result = .ok (out, again) ∧ again.helperInstalled = false ∧
      again.rerouteCount = 0 ∧ again.changed = false) ∧
      ∀ n, standard.passes (n + 1) t = .ok out := by
  obtain ⟨us, hagain, hcount⟩ := standard_separated.apply_again (by decide +kernel)
    (by decide +kernel) (by decide +kernel) h
  refine ⟨⟨_, hagain, rfl, hcount, ?_⟩, fun n => ?_⟩
  · rw [Report.changed, bne_self_eq_false]
  · rw [passes, h]
    exact passes_of_apply_eq_self hagain n

/-- A pass that reroutes two nested calls and installs the helper, and the passes after it. -/
theorem standard_apply_idempotent_nested :
    ∃ t out report, (standard.apply t).result = .ok (out, report) ∧
      report.helperInstalled = true ∧ report.rerouteCount = 2 ∧
      (∃ again, (standard.apply out).result = .ok (out, again) ∧ again.helperInstalled = false ∧
        again.rerouteCount = 0 ∧ again.changed = false) ∧
      ∀ n, standard.passes (n + 1) t = .ok out := by
  let t : Text := "use std::sync::Arc;\nasync fn read_file(x) \x7b " ++
    "CallToolResult::success(CallToolResult::success(x)) \x7d"
  have hdone : (standard.apply t).result.toOption.map
      (fun done => (done.2.helperInstalled, done.2.rerouteCount)) = some (true, 2) := by
    decide +kernel
  obtain ⟨out, report, h, hreport⟩ := exists_of_apply_map hdone
  obtain ⟨hinstalled, hcount⟩ := Prod.mk.inj hreport
  exact ⟨t, out, report, h, hinstalled, hcount, standard_apply_idempotent h⟩

end Profile

end Reroute
