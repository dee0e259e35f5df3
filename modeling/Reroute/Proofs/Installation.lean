import Reroute.Proofs.Plan

/-!
# The installed definition

A pass that installs the helper puts its definition behind the anchor. The definition has a call of
its own, and the routes that come after the installation go through it like through any other text:
if the anchor stands in the body of a unit that is located, the call of the definition lies in that
body too, and it is rerouted to the helper itself. Then the definition is gone from the text.
Otherwise it stands in the new text as it was put in.

## Main definitions

* `Text.MarkedBy` — a mark shows in what a text has more than another copy of it
* `Profile.Enclosed` — the call of the definition stands by itself

## Main results

* `scan_append` — a text is scanned in parts if no call lies across the seam
* `infix_of_infix_render_scan` — what keeps apart from rerouted calls was there before
* `Profile.Enclosed.infix_render_plan`, `Profile.Enclosed.not_infix_render_plan` — whether the
  definition is in the new text goes by the owner of its call
* `Profile.standard_definition_infix_iff` — when a pass keeps the definition that it puts in
-/

namespace Reroute

open Text

/-! ### Marks -/

/-- Copies of a text that overlap at one end leave the mark to the other. -/
structure Text.MarkedBy (w mark : Text) : Prop where
  occurs : mark <:+: w
  border : ∀ v ∈ w.tails, v ≠ [] → v ≠ w → v <+: w →
    mark <:+: w.take (w.length - v.length) ∧ mark <:+: w.drop v.length

namespace Text.MarkedBy

variable {w mark x y : Text}

/-- A text is not in a proper beginning of it behind a text without the mark. -/
theorem not_infix_append_prefix (h : w.MarkedBy mark) (hx : ¬ mark <:+: x) (hy : y <+: w)
    (hlt : y.length < w.length) : ¬ w <:+: x ++ y := by
  intro hin
  rcases List.infix_append_iff_ne_nil.1 hin with hleft | hright | ⟨l, r, hl, hr, hw, hlx, hry⟩
  · exact hx (h.occurs.trans hleft)
  · exact absurd hright.length_le (by omega)
  · -- the part behind the seam begins and ends the text
    have hend : r <:+ w := ⟨l, hw.symm⟩
    have hne : r ≠ w := fun heq => hl (by simpa [heq] using hw)
    have hmark := (h.border r ((List.mem_tails _ _).2 hend) hr hne (hry.trans hy)).1
    rw [hw, List.length_append, Nat.add_sub_cancel, List.take_left] at hmark
    exact hx (hmark.trans hlx.isInfix)

/-- A text is not in a proper end of it before a text without the mark. -/
theorem not_infix_suffix_append (h : w.MarkedBy mark) (hy : ¬ mark <:+: y) (hx : x <:+ w)
    (hlt : x.length < w.length) : ¬ w <:+: x ++ y := by
  intro hin
  rcases List.infix_append_iff_ne_nil.1 hin with hleft | hright | ⟨l, r, hl, hr, hw, hlx, hry⟩
  · exact absurd hleft.length_le (by omega)
  · exact hy (h.occurs.trans hright)
  · have hend : l <:+ w := hlx.trans hx
    have hne : l ≠ w := fun heq => hr (by simpa [heq] using hw)
    have hmark := (h.border l ((List.mem_tails _ _).2 hend) hl hne ⟨r, hw.symm⟩).2
    rw [hw, List.drop_left] at hmark
    exact hy (hmark.trans hry.isInfix)

end Text.MarkedBy

/-! ### Scanning in parts -/

section Scan

variable {target x y w : Text} {units : List (Route × Span)} {offset : Nat}

theorem owner?_eq_none_iff {size : Nat} :
    owner? units offset size = none ↔ ∀ u ∈ units, ¬ u.2.Covers offset size := by
  rw [owner?, Option.map_eq_none_iff, List.find?_eq_none]
  simp

theorem exists_mem_of_owner? {size : Nat} {r : Route} (h : owner? units offset size = some r) :
    ∃ u ∈ units, u.1 = r := by
  obtain ⟨u, hfind, hu⟩ := Option.map_eq_some_iff.1 h
  exact ⟨u, List.mem_of_find?_eq_some hfind, hu⟩

theorem callAt?_eq_some_iff {r : Route} (ht : target ≠ []) :
    callAt? target units offset x = some r ↔
      target <+: x ∧ owner? units offset target.length = some r := by
  rw [callAt?]
  by_cases hpre : target <+: x
  · simp [ht, hpre]
  · simp [hpre]

private theorem callAt?_append (hx : x ≠ [])
    (h : ∀ u v, x = u ++ v → v ≠ [] → target <+: v ++ y → target <+: v) :
    callAt? target units offset (x ++ y) = callAt? target units offset x := by
  have hiff : target <+: x ++ y ↔ target <+: x :=
    ⟨h [] x rfl hx, fun hpre => hpre.trans (List.prefix_append x y)⟩
  simp only [callAt?, hiff]

/-- A text is scanned in parts if no call lies across the seam. -/
theorem scan_append (ht : target ≠ [])
    (h : ∀ u v, x = u ++ v → v ≠ [] → target <+: v ++ y → target <+: v) :
    scan target units offset (x ++ y) =
      scan target units offset x ++ scan target units (offset + x.length) y := by
  fun_induction scan target units offset x with
  | case1 => simp
  | case2 offset b rest hcall ih =>
    have hrest := ih fun u v huv => h (b :: u) v (by rw [huv, List.cons_append])
    have hnone := (callAt?_append (List.cons_ne_nil b rest) h).trans hcall
    rw [List.cons_append] at hnone ⊢
    rw [scan, hnone]
    simp only [hrest, List.cons_append, List.length_cons]
    rw [Nat.add_assoc, Nat.add_comm 1]
  | case3 offset b rest r hcall ih =>
    -- the call lies in the first part, and what is behind it is scanned in parts
    obtain ⟨⟨z, hz⟩, howner⟩ := (callAt?_eq_some_iff ht).1 hcall
    obtain ⟨c, w, rfl⟩ := List.exists_cons_of_ne_nil ht
    obtain ⟨rfl, rfl⟩ : c = b ∧ w ++ z = rest := by simpa using hz
    have hdrop : (w ++ z).drop ((c :: w).length - 1) = z := by simp
    rw [hdrop] at ih ⊢
    have hrest := ih fun u v huv => h (c :: w ++ u) v (by rw [huv]; simp)
    have hsome : scan (c :: w) units offset ((c :: w) ++ (z ++ y)) = _ :=
      scan_append_call ht howner
    rw [hrest] at hsome
    simpa [Nat.add_assoc, Nat.add_comm, Nat.add_left_comm] using hsome

/-- What keeps apart from all rerouted calls was there before they were rerouted. -/
theorem infix_of_infix_render_scan {c : CallRule} (ht : target ≠ [])
    (hw : ∀ u ∈ units, Apart w (c.opening u.1)) {kept : Text}
    (h : w <:+: kept ++ c.render (scan target units offset x)) : w <:+: kept ++ x := by
  -- along the scan: what was kept since the last rerouted call grows byte by byte
  fun_induction scan target units offset x generalizing kept with
  | case1 => exact h
  | case2 offset b rest hcall ih =>
    have hnext : w <:+: (kept ++ [b]) ++ c.render (scan target units (offset + 1) rest) := by
      simpa [Mend.text] using h
    simpa using ih hnext
  | case3 offset b rest r hcall ih =>
    obtain ⟨u, hu, rfl⟩ := exists_mem_of_owner? ((callAt?_eq_some_iff ht).1 hcall).2
    rw [CallRule.render_cons, Mend.text, infix_insert_iff (hw u hu)] at h
    rcases h with hkept | hrest
    · exact List.infix_append_of_infix_left hkept
    · have hbehind : w <:+: rest.drop (target.length - 1) := @ih [] hrest
      have hsuffix : rest.drop (target.length - 1) <:+ kept ++ b :: rest :=
        (List.drop_suffix _ _).trans ((List.suffix_cons b rest).trans (List.suffix_append _ _))
      exact hbehind.trans hsuffix.isInfix

end Scan

/-! ### Installing the helper -/

/-- A helper that is put in stands behind the first anchor of a text without its mark. -/
theorem Helper.exists_of_install {h : Helper} {anchor t start : Text} (hident : h.ident ≠ [])
    (hinstall : h.install anchor t = .ok (start, true)) :
    ∃ before after, t.cut? anchor = some (before, after) ∧ ¬ h.ident <:+: t ∧
      start = before ++ (anchor ++ (h.definition ++ after)) := by
  obtain ⟨before, after, hcut, ⟨hfalse, -⟩ | ⟨-, rfl, hnew⟩⟩ := install_cases hinstall
  · cases hfalse
  · have hmissing := hnew.resolve_left hident
    refine ⟨before, after, hcut, fun hin => ?_, rfl⟩
    rw [includes_iff.2 hin] at hmissing
    cases hmissing

namespace Profile

/-- The definition has one call, which stands by itself: nothing before or behind the definition,
and nothing that is written for a route, runs into it. -/
structure Enclosed (p : Profile) (lead tail : Text) : Prop where
  definition_eq : p.helper.definition = lead ++ (p.target ++ tail)
  ident_ne_nil : p.helper.ident ≠ []
  marked : p.helper.definition.MarkedBy p.helper.ident
  target_unbordered : p.target.Unbordered
  target_apart_anchor : Apart p.target p.anchor
  /-- The call is the only one. -/
  only_call : ∀ v ∈ (p.anchor ++ p.helper.definition).tails, p.target <+: v → v = p.target ++ tail
  /-- The definition ends with a byte that no call has. -/
  last : ∃ z b, p.anchor ++ p.helper.definition = z ++ [b] ∧ b ∉ p.target
  opening_apart : ∀ r ∈ p.routes, Apart p.helper.definition (p.callRule.opening r)

theorem mem_routes_of_mem_located {p : Profile} {t : Text} {u : Route × Span}
    (h : u ∈ p.located t) : u.1 ∈ p.routes := by
  obtain ⟨r, hr, hu⟩ := List.mem_filterMap.1 h
  obtain ⟨span, -, rfl⟩ := Option.map_eq_some_iff.1 hu
  exact hr

namespace Enclosed

variable {p : Profile} {lead tail before after : Text}

/-- A call that starts in the anchor or the definition is the call of the definition. -/
theorem eq_append_lead (he : p.Enclosed lead tail) (ht : p.target ≠ []) {u v : Text}
    (huv : p.anchor ++ p.helper.definition = u ++ v) (hv : v ≠ [])
    (hpre : p.target <+: v ++ after) : u = p.anchor ++ lead := by
  obtain ⟨z, b, hlast, hb⟩ := he.last
  have hwithin : p.target <+: v := by
    obtain ⟨v', b', rfl⟩ := (List.eq_nil_or_concat' v).resolve_left hv
    rw [huv, ← List.append_assoc] at hlast
    obtain rfl : b' = b := List.singleton_inj.1 (List.append_inj' hlast rfl).2
    rw [List.append_assoc, prefix_append_iff_of_apart (apart_singleton ht hb)] at hpre
    exact hpre.trans (List.prefix_append v' _)
  have hend : v <:+ p.anchor ++ p.helper.definition := ⟨u, huv.symm⟩
  have hcall := he.only_call v ((List.mem_tails _ _).2 hend) hwithin
  rw [hcall, he.definition_eq, ← List.append_assoc] at huv
  exact (List.append_cancel_right huv).symm

/-- If nobody owns the call of the definition, anchor and definition are kept. -/
theorem infix_render_plan (he : p.Enclosed lead tail) (hp : p.Separated) {start : Text}
    (hstart : start = before ++ (p.anchor ++ (p.helper.definition ++ after)))
    (hfree : owner? (p.located start) (before ++ (p.anchor ++ lead)).length p.target.length =
      none) :
    p.anchor ++ p.helper.definition <:+: p.callRule.render (p.plan start) := by
  rw [plan]
  generalize p.located start = units at hfree ⊢
  have hseam : scan p.target units 0
      (before ++ (p.anchor ++ (p.helper.definition ++ after))) = _ :=
    scan_append hp.target_ne_nil fun u v _ _ hpre =>
      (prefix_append_iff_of_apart he.target_apart_anchor).1 hpre
  have hcalls : ∀ u v, p.anchor ++ p.helper.definition = u ++ v → v ≠ [] →
      p.target <+: v ++ after →
      owner? units (0 + before.length + u.length) p.target.length = none := by
    intro u v huv hv hpre
    rw [he.eq_append_lead hp.target_ne_nil huv hv hpre, Nat.zero_add, ← List.length_append]
    exact hfree
  have hkept : scan p.target units (0 + before.length)
      ((p.anchor ++ p.helper.definition) ++ after) = _ :=
    scan_append_of_kept hcalls
  rw [hstart, hseam, ← List.append_assoc p.anchor, hkept]
  simp only [CallRule.render_append, CallRule.render_map_keep]
  exact List.infix_append' _ _ _

/-- If somebody owns the call of the definition, the definition is gone. -/
theorem not_infix_render_plan (he : p.Enclosed lead tail) (hp : p.Separated) {start : Text}
    {r : Route} (hstart : start = before ++ (p.anchor ++ (p.helper.definition ++ after)))
    (hbefore : ¬ p.helper.ident <:+: before ++ p.anchor) (hafter : ¬ p.helper.ident <:+: after)
    (howned : owner? (p.located start) (before ++ (p.anchor ++ lead)).length p.target.length =
      some r) :
    ¬ p.helper.definition <:+: p.callRule.render (p.plan start) := by
  have hpos := List.length_pos_iff.2 hp.target_ne_nil
  have hlength := congrArg List.length he.definition_eq
  simp only [List.length_append] at hlength
  have hapart : ∀ u ∈ p.located start, Apart p.helper.definition (p.callRule.opening u.1) :=
    fun u hu => he.opening_apart u.1 (mem_routes_of_mem_located hu)
  obtain ⟨u, hu, hr⟩ := exists_mem_of_owner? howned
  -- two calls never overlap, so the text before the call is scanned on its own
  have hseam : scan p.target (p.located start) 0
      ((before ++ (p.anchor ++ lead)) ++ (p.target ++ (tail ++ after))) = _ :=
    scan_append hp.target_ne_nil fun u v _ hv hpre =>
      he.target_unbordered.prefix_of_prefix_append hv hpre
  rw [Nat.zero_add, scan_append_call hp.target_ne_nil howned] at hseam
  have hwhole : start = (before ++ (p.anchor ++ lead)) ++ (p.target ++ (tail ++ after)) := by
    rw [hstart, he.definition_eq]
    simp only [List.append_assoc]
  have hplan : p.plan start = _ := (congrArg (scan p.target (p.located start) 0) hwhole).trans hseam
  rw [hplan, CallRule.render_append, CallRule.render_cons, Mend.text, ← hr,
    infix_insert_iff (hapart u hu)]
  rintro (hin | hin)
  · -- before the call there is only a beginning of the definition
    have hsource : p.helper.definition <:+: [] ++ (before ++ (p.anchor ++ lead)) :=
      infix_of_infix_render_scan hp.target_ne_nil hapart hin
    rw [List.nil_append, ← List.append_assoc] at hsource
    refine he.marked.not_infix_append_prefix hbefore ?_ (by omega) hsource
    rw [he.definition_eq]
    exact List.prefix_append _ _
  · have hsource : p.helper.definition <:+: [] ++ (tail ++ after) :=
      infix_of_infix_render_scan hp.target_ne_nil hapart hin
    refine he.marked.not_infix_suffix_append hafter ?_ (by omega) hsource
    rw [he.definition_eq, ← List.append_assoc]
    exact List.suffix_append _ _

end Enclosed

-- one evaluation for all that concerns the definition: unfolding the string literals is what costs
private theorem standard_definition :
    let d := standard.helper.definition
    let lead := d.take 217
    let tail := d.drop (217 + standard.target.length)
    (d.cut? standard.target = some (lead, tail) ∧ standard.helper.ident ≠ [] ∧
      standard.helper.ident <:+: d ∧ standard.target.Unbordered ∧
      Apart standard.target standard.anchor ∧ newline ∉ standard.target) ∧
    (∀ v ∈ d.tails, v ≠ [] → v ≠ d → v <+: d →
      standard.helper.ident <:+: d.take (d.length - v.length) ∧
        standard.helper.ident <:+: d.drop v.length) ∧
    (∀ v ∈ (standard.anchor ++ d).tails, standard.target <+: v → v = standard.target ++ tail) ∧
    d = newline :: (d.tail.dropLast ++ [newline]) ∧
    ∀ r ∈ standard.routes, newline ∉ standard.callRule.opening r ∧
      ¬ standard.callRule.opening r <:+: d := by
  decide +kernel

/-- The call of the standard definition stands by itself. -/
theorem standard_enclosed : ∃ lead tail,
    standard.helper.definition.cut? standard.target = some (lead, tail) ∧
      standard.Enclosed lead tail := by
  obtain ⟨⟨hcut, hident, hmark, hunbordered, hanchor, hnewline⟩, hborder, honly, hlines, hroutes⟩ :=
    standard_definition
  refine ⟨_, _, hcut, ?_⟩
  exact {
    definition_eq := eq_append_of_cut? hcut
    ident_ne_nil := hident
    marked := ⟨hmark, hborder⟩
    target_unbordered := hunbordered
    target_apart_anchor := hanchor
    only_call := honly
    last := by
      refine ⟨standard.anchor ++ newline :: standard.helper.definition.tail.dropLast, newline, ?_,
        hnewline⟩
      rw [List.append_assoc, List.cons_append, ← hlines]
    opening_apart := fun r hr => apart_of_enclosed hlines (hroutes r hr).1 (hroutes r hr).2 }

/-- A pass that installs the helper leaves its definition behind the anchor as it is, exactly if the
call of the definition lies in the body of no unit that is located. -/
theorem standard_definition_infix_iff {t out : Text} {report : Report}
    (h : (standard.apply t).result = .ok (out, report))
    (hinstalled : report.helperInstalled = true) :
    ∃ before after lead tail, t.cut? standard.anchor = some (before, after) ∧
      standard.helper.definition.cut? standard.target = some (lead, tail) ∧
      (standard.anchor ++ standard.helper.definition <:+: out ↔
        ∀ u ∈ standard.located
            (before ++ (standard.anchor ++ (standard.helper.definition ++ after))),
          ¬ u.2.Covers (before ++ (standard.anchor ++ lead)).length standard.target.length) := by
  obtain ⟨lead, tail, hcall, henclosed⟩ := standard_enclosed
  obtain ⟨start, installed, hinstall⟩ := exists_install_of_apply h
  obtain ⟨units, happly, -⟩ := standard_separated.apply_eq_plan hinstall
  obtain ⟨rfl, rfl⟩ : _ = out ∧ _ = report := by
    simpa using happly.symm.trans h
  obtain rfl : installed = true := hinstalled
  obtain ⟨before, after, hcut, hmissing, hstart⟩ :=
    Helper.exists_of_install henclosed.ident_ne_nil hinstall
  refine ⟨before, after, lead, tail, hcut, hcall, ?_⟩
  rw [← hstart, ← owner?_eq_none_iff]
  constructor
  · intro hin
    cases howner : owner? (standard.located start) (before ++ (standard.anchor ++ lead)).length
        standard.target.length with
    | none => rfl
    | some r =>
      -- the text has no mark of the helper on either side of the anchor
      have ht := eq_append_of_cut? hcut
      have hbefore : before ++ standard.anchor <:+: t := by
        rw [ht, ← List.append_assoc]
        exact (List.prefix_append _ _).isInfix
      have hafter : after <:+: t := by
        rw [ht, ← List.append_assoc]
        exact (List.suffix_append _ _).isInfix
      refine absurd ?_ (henclosed.not_infix_render_plan standard_separated hstart
        (fun hmark => hmissing (hmark.trans hbefore)) (fun hmark => hmissing (hmark.trans hafter))
        howner)
      exact (List.suffix_append _ _).isInfix.trans hin
  · intro hfree
    exact henclosed.infix_render_plan standard_separated hstart hfree

/-- A unit with a call of its own, behind the anchor. -/
theorem standard_definition_infix_iff_unit :
    let t : Text := "use std::sync::Arc;\nasync fn read_file(x)\x7bCallToolResult::success(x)\x7d"
    ∃ out report, (standard.apply t).result = .ok (out, report) ∧ report.helperInstalled = true ∧
      ∃ before after lead tail, t.cut? standard.anchor = some (before, after) ∧
        standard.helper.definition.cut? standard.target = some (lead, tail) ∧
        (standard.anchor ++ standard.helper.definition <:+: out ↔
          ∀ u ∈ standard.located
              (before ++ (standard.anchor ++ (standard.helper.definition ++ after))),
            ¬ u.2.Covers (before ++ (standard.anchor ++ lead)).length
              standard.target.length) := by
  intro t
  have hdone : (standard.apply t).result.toOption.map (·.2.helperInstalled) = some true := by
    decide +kernel
  obtain ⟨out, report, h, hinstalled⟩ := exists_of_apply_map hdone
  exact ⟨out, report, h, hinstalled, standard_definition_infix_iff h hinstalled⟩

/-- The anchor stands in the body of a unit: the helper is made to call itself. -/
theorem standard_apply_reroutes_definition :
    let t : Text := "async fn read_file(x)\x7buse std::sync::Arc;\x7d"
    (standard.apply t).result.toOption.map (fun (out, report) =>
        (report.helperInstalled, out.includes (standard.anchor ++ standard.helper.definition))) =
      some (true, false) := by
  decide +kernel

end Profile

end Reroute
