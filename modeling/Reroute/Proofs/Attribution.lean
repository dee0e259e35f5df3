import Reroute.Proofs.Plan

/-!
# Whose calls are rerouted

A call is rerouted for a unit, and one would like it to stand in the declaration of that unit. But a
signature may run over the mark of another declaration: between the parenthesis and the brace
anything but a brace may stand, so a unit that is declared without a body takes the body of the next
unit that has one. This is the only way in which a call is rerouted for the wrong unit. Whether it
happens can be told from the text before the turns: a call is rerouted for the right unit just if
the body in which the unit was located stands in a declaration of that unit.

## Main definitions

* `Landmarks.DeclaredAt` — an offset is in the declaration of a unit
* `CallRule.sites` — the routes and offsets of the rerouted calls

## Main results

* `Outline.declaredAt_iff` — an offset in a section is in the declaration that the head starts with
* `Profile.standard_declaredAt_iff` — when a call is rerouted for the unit it belongs to
-/

namespace Reroute

open Text

open Landmarks (brace)

/-- Whether the last mark that ends at an offset or before it is followed by a name and the opening
parenthesis. -/
def Landmarks.DeclaredAt (l : Landmarks) (name t : Text) (offset : Nat) : Prop :=
  ∃ i, i < offset ∧ i + l.nextUnit.length ≤ offset ∧
    (l.nextUnit ++ (name ++ "(") : Text) <+: t.drop i ∧
    ¬ l.nextUnit <:+: (t.take offset).drop (i + 1)

instance (l : Landmarks) (name t : Text) (offset : Nat) : Decidable (l.DeclaredAt name t offset) :=
  inferInstanceAs (Decidable (∃ i, i < offset ∧ i + l.nextUnit.length ≤ offset ∧
    (l.nextUnit ++ (name ++ "(") : Text) <+: t.drop i ∧
    ¬ l.nextUnit <:+: (t.take offset).drop (i + 1)))

/-- The routes of the rerouted calls and where their openings stand, in a text that starts at an
offset. -/
def CallRule.sites (c : CallRule) : Nat → List Mend → List (Route × Nat)
  | _, [] => []
  | offset, .keep _ :: ms => c.sites (offset + 1) ms
  | offset, .reroute r :: ms => (r, offset) :: c.sites (offset + (c.opening r).length) ms

/-! ### Declarations in outlines -/

namespace Outline

variable {mark : Text} {o : Outline} {xs ys : List Section} {s : Section} {i : Nat}

/-- Up to an offset in a section, the text is that of the sections before, the mark and a part of
the section. -/
private theorem take_text (hss : o.sections = xs ++ s :: ys)
    (hlo : o.offset mark xs + mark.length ≤ i) (hhi : i ≤ o.offset mark (xs ++ [s])) :
    ∃ x q, q <+: s.text ∧ x.length = o.offset mark xs ∧
      (o.text mark).take i = x ++ (mark ++ q) ∧
      o.text mark = x ++ (mark ++ (s.text ++ sectionsText mark ys)) := by
  have htext : o.text mark = (o.preamble ++ sectionsText mark xs) ++
      (mark ++ (s.text ++ sectionsText mark ys)) := by
    rw [text, hss, sectionsText_append, sectionsText_cons, List.append_assoc]
  have hlength : (o.preamble ++ sectionsText mark xs).length = o.offset mark xs :=
    List.length_append
  have hsize : i - (o.offset mark xs + mark.length) ≤ s.text.length := by
    rw [offset_append_cons, sectionsText_nil, List.length_nil] at hhi
    omega
  refine ⟨_, s.text.take (i - (o.offset mark xs + mark.length)), List.take_prefix _ _, hlength,
    ?_, htext⟩
  obtain ⟨k, rfl⟩ := Nat.exists_eq_add_of_le hlo
  rw [Nat.add_sub_cancel_left] at hsize ⊢
  rw [htext, Nat.add_assoc, ← hlength, List.take_length_add_append, List.take_length_add_append,
    List.take_append_of_le_length hsize]

/-- An offset in a section is in the declaration that the head of the section starts with. -/
theorem declaredAt_iff {l : Landmarks} {name : Text} (hm : IsMark l.nextUnit)
    (h : l.Readable name) (ho : o.Fits l.nextUnit) (hss : o.sections = xs ++ s :: ys)
    (hlo : o.offset l.nextUnit xs + l.nextUnit.length ≤ i)
    (hhi : i ≤ o.offset l.nextUnit (xs ++ [s])) :
    l.DeclaredAt name (o.text l.nextUnit) i ↔ (name ++ "(" : Text) <+: s.head := by
  obtain ⟨x, q, hq, hx, htake, htext⟩ := take_text hss hlo hhi
  have hpos := List.length_pos_iff.2 hm.ne_nil
  -- behind the first byte of its mark, the section has no mark
  have hfree : ¬ l.nextUnit <:+: l.nextUnit.tail ++ q := by
    refine hm.not_infix_tail fun hin => ho.section_free s (by simp [hss]) ?_
    exact hin.trans hq.isInfix
  have hdrop : (x ++ (l.nextUnit ++ q)).drop (x.length + 1) = l.nextUnit.tail ++ q := by
    rw [← List.drop_drop, List.drop_left, List.drop_one, List.tail_append_of_ne_nil hm.ne_nil]
  -- at the mark of the section itself, the head decides
  have hhere : (l.nextUnit ++ (name ++ "(") : Text) <+: (o.text l.nextUnit).drop x.length ↔
      (name ++ "(" : Text) <+: s.head := by
    rw [htext, List.drop_left, List.prefix_append_right_inj, h.label.prefix_iff]
  rw [Landmarks.DeclaredAt, htake]
  constructor
  · rintro ⟨k, -, hk, hpre, hlast⟩
    rcases Nat.lt_trichotomy k x.length with hlt | rfl | hgt
    · -- the mark of the section comes later
      refine absurd ?_ hlast
      rw [List.drop_append_of_le_length hlt]
      exact List.infix_append' _ l.nextUnit q
    · exact hhere.1 hpre
    · -- the section has no other mark
      refine absurd ?_ hfree
      have hmark : l.nextUnit <+: (x ++ (l.nextUnit ++ q)).drop k := by
        rw [← htake, List.drop_take, List.prefix_take_iff]
        exact ⟨(List.prefix_append _ _).trans hpre, by omega⟩
      obtain ⟨d, rfl⟩ := Nat.exists_eq_add_of_lt hgt
      rw [Nat.add_right_comm, ← List.drop_drop, hdrop] at hmark
      exact hmark.isInfix.trans (List.drop_suffix d _).isInfix
  · intro hhead
    exact ⟨x.length, by omega, by omega, hhere.2 hhead, by rwa [hdrop]⟩

end Outline

/-! ### Mended outlines -/

/-- A section after its body has been mended. -/
def Section.mend (c : CallRule) (own : Option Route) (s : Section) : Section :=
  s.mapBody fun b => c.render (bodyMends c.target b own)

/-- Sections after their bodies have been mended, if the first section has the index `j`. -/
def mendSections (c : CallRule) (own : Nat → Option Route) : Nat → List Section → List Section
  | _, [] => []
  | j, s :: ss => s.mend c (own j) :: mendSections c own (j + 1) ss

section Mended

variable {c : CallRule} {mark : Text} {own : Nat → Option Route} {s : Section}

/-- A section is mended by its mends. -/
theorem Section.render_mends (own : Option Route) (s : Section) :
    c.render (s.mends c.target own) = (s.mend c own).text := by
  cases hb : s.body with
  | none =>
    have hbody : (s.mend c own).body = none := by rw [mend, mapBody, hb, Option.map_none]
    rw [mends_of_none hb, text_of_none hbody, CallRule.render_map_keep, mend, mapBody]
  | some b =>
    have hbody : (s.mend c own).body = some (c.render (bodyMends c.target b own)) :=
      body_mapBody hb _
    rw [mends_of_some hb, text_of_some hbody, CallRule.render_append, CallRule.render_cons,
      CallRule.render_map_keep]
    rfl

theorem render_sectionsMends (j : Nat) (ss : List Section) :
    c.render (sectionsMends mark c.target own j ss) =
      sectionsText mark (mendSections c own j ss) := by
  induction ss generalizing j with
  | nil => rfl
  | cons s ss ih =>
    rw [sectionsMends, mendSections, sectionsText_cons, CallRule.render_append,
      CallRule.render_append, CallRule.render_map_keep, Section.render_mends, ih]

theorem mendSections_append (j : Nat) (xs ys : List Section) :
    mendSections c own j (xs ++ ys) =
      mendSections c own j xs ++ mendSections c own (j + xs.length) ys := by
  induction xs generalizing j with
  | nil => rfl
  | cons x xs ih =>
    have hindex : j + 1 + xs.length = j + (x :: xs).length := by
      rw [List.length_cons]
      omega
    rw [List.cons_append, mendSections, ih, mendSections, hindex, List.cons_append]

theorem exists_of_mem_mendSections {j : Nat} {ss : List Section}
    (h : s ∈ mendSections c own j ss) : ∃ i, ∃ s' ∈ ss, s = s'.mend c (own i) := by
  induction ss generalizing j with
  | nil => exact absurd h List.not_mem_nil
  | cons s' ss ih =>
    rw [mendSections, List.mem_cons] at h
    rcases h with rfl | h
    · exact ⟨j, s', List.mem_cons_self, rfl⟩
    · obtain ⟨i, s', hs', rfl⟩ := ih h
      exact ⟨i, s', List.mem_cons_of_mem _ hs', rfl⟩

end Mended

namespace Outline

variable {p : Profile} {rs : List Route} {o : Outline}

/-- An outline after the turns of some routes. -/
def mend (p : Profile) (rs : List Route) (o : Outline) : Outline :=
  ⟨o.preamble, mendSections p.callRule (o.owner? rs) 0 o.sections⟩

theorem render_plan (p : Profile) (rs : List Route) (o : Outline) :
    p.callRule.render (o.plan p rs) = (o.mend p rs).text p.nextUnit := by
  rw [plan, CallRule.render_append, CallRule.render_map_keep, text, mend]
  exact congrArg _ (render_sectionsMends 0 o.sections)

theorem mem_of_owner? {j : Nat} {r : Route} (h : o.owner? rs j = some r) :
    r ∈ rs ∧ o.place? r.label = some j :=
  ⟨List.mem_of_find?_eq_some h, by simpa using List.find?_some h⟩

theorem Fits.mend (hp : p.Separated) (hrs : ∀ r ∈ rs, r ∈ p.routes) (ho : o.Fits p.nextUnit) :
    (o.mend p rs).Fits p.nextUnit := by
  refine ⟨ho.preamble_free, fun s' hs' => ?_⟩
  obtain ⟨i, s, hs, rfl⟩ := exists_of_mem_mendSections hs'
  refine Section.not_infix_mapBody hp.mark.ne_nil hp.mark.no_brace (ho.section_free s hs) ?_
  intro b hb
  cases hown : o.owner? rs i with
  | none => rwa [bodyMends, CallRule.render_map_keep]
  | some r =>
    rw [render_bodyMends]
    exact not_infix_reroute hp (hrs r (mem_of_owner? hown).1) hb

end Outline

/-! ### Sites -/

section Sites

variable {c : CallRule} {mark target : Text} {own : Nat → Option Route} {site : Route × Nat}

theorem CallRule.sites_append (offset : Nat) (ms ns : List Mend) :
    c.sites offset (ms ++ ns) =
      c.sites offset ms ++ c.sites (offset + (c.render ms).length) ns := by
  induction ms generalizing offset with
  | nil => rfl
  | cons m ms ih =>
    cases m with
    | keep b =>
      rw [List.cons_append, sites, sites, ih, render_cons]
      simp only [Mend.text, List.length_append, List.length_singleton, Nat.add_assoc]
    | reroute r =>
      rw [List.cons_append, sites, sites, ih, render_cons]
      simp only [Mend.text, List.length_append, List.cons_append, Nat.add_assoc]

@[simp]
theorem CallRule.sites_map_keep (offset : Nat) (t : Text) : c.sites offset (t.map .keep) = [] := by
  induction t generalizing offset with
  | nil => rfl
  | cons b t ih => exact ih (offset + 1)

theorem CallRule.length_sites (offset : Nat) (ms : List Mend) :
    (c.sites offset ms).length = ms.countP Mend.isReroute := by
  induction ms generalizing offset with
  | nil => rfl
  | cons m ms ih =>
    cases m with
    | keep b => rw [sites, ih, List.countP_cons_of_neg (by simp [Mend.isReroute])]
    | reroute r =>
      rw [sites, List.length_cons, ih, List.countP_cons_of_pos (by simp [Mend.isReroute])]

/-- At a site a call is rerouted, and the opening stands in the new text. -/
theorem CallRule.exists_of_mem_sites {offset : Nat} {ms : List Mend}
    (h : site ∈ c.sites offset ms) :
    .reroute site.1 ∈ ms ∧ ∃ x y, c.render ms = x ++ (c.opening site.1 ++ y) ∧
      site.2 = offset + x.length := by
  induction ms generalizing offset with
  | nil => exact absurd h List.not_mem_nil
  | cons m ms ih =>
    cases m with
    | keep b =>
      obtain ⟨hmem, x, y, hrender, hsite⟩ := ih h
      refine ⟨List.mem_cons_of_mem _ hmem, b :: x, y, ?_, ?_⟩
      · rw [render_cons, hrender]
        rfl
      · rw [hsite, List.length_cons]
        omega
    | reroute r =>
      rw [sites, List.mem_cons] at h
      rcases h with rfl | h
      · exact ⟨List.mem_cons_self, [], c.render ms, by rw [render_cons]; rfl, rfl⟩
      · obtain ⟨hmem, x, y, hrender, hsite⟩ := ih h
        refine ⟨List.mem_cons_of_mem _ hmem, c.opening r ++ x, y, ?_, ?_⟩
        · rw [render_cons, hrender, List.append_assoc]
          rfl
        · rw [hsite, List.length_append]
          omega

private theorem not_mem_map_keep (r : Route) (t : Text) : .reroute r ∉ t.map Mend.keep := by
  simp

/-- The calls of a body are rerouted for its owner only. -/
theorem eq_some_of_mem_bodyMends {own : Option Route} {b : Text} {r : Route}
    (h : .reroute r ∈ bodyMends target b own) : own = some r := by
  cases own with
  | none => exact absurd h (not_mem_map_keep r b)
  | some r' =>
    rw [bodyMends] at h
    have hne := pieces_ne_nil b target
    generalize b.pieces target = qs at h hne
    induction qs with
    | nil => exact absurd rfl hne
    | cons q qs ih =>
      by_cases hqs : qs = []
      · simp [hqs, List.intercalate] at h
      · rw [intercalate_map_keep _ hqs, List.mem_append, List.mem_cons] at h
        rcases h with h | h | h
        · exact absurd h (not_mem_map_keep r q)
        · rw [Mend.reroute.inj h]
        · exact ih h hqs

theorem eq_some_of_mem_mends {own : Option Route} {s : Section} {r : Route}
    (h : .reroute r ∈ s.mends target own) : own = some r := by
  cases hb : s.body with
  | none =>
    rw [Section.mends_of_none hb] at h
    exact absurd h (not_mem_map_keep r s.head)
  | some b =>
    rw [Section.mends_of_some hb, List.mem_append, List.mem_cons] at h
    rcases h with h | h | h
    · exact absurd h (not_mem_map_keep r s.head)
    · exact absurd h (by simp)
    · exact eq_some_of_mem_bodyMends h

/-- A rerouted call stands in a section that belongs to its route, behind the mark. -/
theorem exists_of_mem_sites_sections {j offset : Nat} {ss : List Section}
    (h : site ∈ c.sites offset (sectionsMends mark c.target own j ss)) :
    ∃ xs s ys, ss = xs ++ s :: ys ∧ own (j + xs.length) = some site.1 ∧
      offset + (sectionsText mark (mendSections c own j xs)).length + mark.length ≤ site.2 ∧
      site.2 ≤ offset + (sectionsText mark (mendSections c own j (xs ++ [s]))).length := by
  induction ss generalizing j offset with
  | nil => exact absurd h List.not_mem_nil
  | cons s ss ih =>
    rw [sectionsMends, CallRule.sites_append, CallRule.sites_map_keep, List.nil_append,
      CallRule.render_map_keep, CallRule.sites_append, List.mem_append] at h
    -- the call is in the first section or in the ones after it
    rcases h with h | h
    · obtain ⟨hmem, x, y, hrender, hsite⟩ := CallRule.exists_of_mem_sites h
      have hlength := congrArg List.length hrender
      rw [Section.render_mends] at hlength
      simp only [List.length_append] at hlength
      refine ⟨[], s, ss, rfl, eq_some_of_mem_mends hmem, ?_, ?_⟩
      · rw [mendSections, sectionsText_nil, List.length_nil]
        omega
      · rw [List.nil_append, mendSections, mendSections, sectionsText_cons, sectionsText_nil]
        simp only [List.length_append, List.length_nil]
        omega
    · obtain ⟨xs, s', ys, rfl, hown, hlo, hhi⟩ := ih h
      have hindex : j + 1 + xs.length = j + (s :: xs).length := by
        rw [List.length_cons]
        omega
      rw [Section.render_mends] at hlo hhi
      refine ⟨s :: xs, s', ys, rfl, hindex ▸ hown, ?_, ?_⟩
      · rw [mendSections, sectionsText_cons]
        simp only [List.length_append]
        omega
      · rw [List.cons_append, mendSections, sectionsText_cons]
        simp only [List.length_append] at hhi ⊢
        omega

end Sites

namespace Profile

variable {p : Profile} {o : Outline} {site : Route × Nat}

/-- A call is rerouted for the unit whose declaration it is in, just if the body of the unit was
located in such a declaration. -/
theorem Separated.declaredAt_iff (hp : p.Separated) (ho : o.Fits p.nextUnit)
    (h : site ∈ p.callRule.sites 0 (o.plan p p.routes)) :
    ∃ span, p.landmarks.locate site.1.name (o.text p.nextUnit) = .ok span ∧
      (p.landmarks.DeclaredAt site.1.name (p.callRule.render (o.plan p p.routes)) site.2 ↔
        p.landmarks.DeclaredAt site.1.name (o.text p.nextUnit) span.start.toNat) := by
  rw [Outline.plan, CallRule.sites_append, CallRule.sites_map_keep, List.nil_append,
    CallRule.render_map_keep, Nat.zero_add] at h
  obtain ⟨xs, s, ys, hss, hown, hlo, hhi⟩ :=
    exists_of_mem_sites_sections (c := p.callRule) h
  rw [Nat.zero_add] at hown
  -- the owner of the section is placed there, so that is where it was located
  obtain ⟨hr, hplace⟩ := Outline.mem_of_owner? hown
  obtain ⟨xs', s', b, ys', hss', hlen, hb⟩ := exists_of_place hplace
  obtain ⟨rfl, hcons⟩ := List.append_inj (hss'.symm.trans hss) hlen
  obtain ⟨rfl, rfl⟩ := List.cons_eq_cons.1 hcons
  have hlocate := hp.locate_text hr ho
  rw [hplace] at hlocate
  refine ⟨_, hlocate, ?_⟩
  -- both offsets are in the section of the body, once before and once after its mending
  have hreadable := hp.readable site.1 hr
  have hbefore : p.landmarks.DeclaredAt site.1.name (o.text p.nextUnit)
      (o.upTo p.nextUnit xs' s').length ↔ (site.1.name ++ "(" : Text) <+: s'.head := by
    have hupTo := Outline.length_upTo p.nextUnit o xs' s'
    have hend := Outline.offset_append_of_some p.nextUnit o xs' [] hb
    exact Outline.declaredAt_iff hp.mark hreadable ho hss
      (show o.offset p.nextUnit xs' + p.nextUnit.length ≤ _ by omega)
      (show _ ≤ o.offset p.nextUnit (xs' ++ [s']) by omega)
  have hafter : p.landmarks.DeclaredAt site.1.name ((o.mend p p.routes).text p.nextUnit) site.2 ↔
      (site.1.name ++ "(" : Text) <+: s'.head := by
    have hsections : (o.mend p p.routes).sections =
        mendSections p.callRule (o.owner? p.routes) 0 xs' ++
          s'.mend p.callRule (o.owner? p.routes xs'.length) ::
            mendSections p.callRule (o.owner? p.routes) (xs'.length + 1) ys' := by
      rw [Outline.mend, hss, mendSections_append, Nat.zero_add, mendSections]
    rw [mendSections_append, Nat.zero_add] at hhi
    have hmended := Outline.declaredAt_iff hp.mark hreadable (ho.mend hp fun _ h => h) hsections
      hlo hhi
    exact hmended
  rw [Outline.render_plan, Outline.span_eq hss hb, hafter]
  exact hbefore.symm

/-- The calls that a pass of the standard profile reroutes are those at the sites of the plan. Such
a call is in the declaration of the unit that it is rerouted for, just if the unit's body was
located in such a declaration and not in that of another unit. -/
theorem standard_declaredAt_iff {t out : Text} {report : Report}
    (h : (standard.apply t).result = .ok (out, report)) :
    ∃ start installed, standard.helper.install standard.anchor t = .ok (start, installed) ∧
      out = standard.callRule.render (standard.plan start) ∧
      report.rerouteCount = (standard.callRule.sites 0 (standard.plan start)).length ∧
      ∀ site ∈ standard.callRule.sites 0 (standard.plan start),
        standard.callRule.opening site.1 <+: out.drop site.2 ∧
        ∃ span, standard.landmarks.locate site.1.name start = .ok span ∧
          (standard.landmarks.DeclaredAt site.1.name out site.2 ↔
            standard.landmarks.DeclaredAt site.1.name start span.start.toNat) := by
  obtain ⟨start, installed, hinstall⟩ := exists_install_of_apply h
  obtain ⟨units, happly, hcount⟩ := standard_separated.apply_eq_plan hinstall
  rw [h, Except.ok.injEq, Prod.mk.injEq] at happly
  obtain ⟨rfl, rfl⟩ := happly
  refine ⟨start, installed, hinstall, rfl, ?_, fun site hsite => ⟨?_, ?_⟩⟩
  · rw [CallRule.length_sites]
    exact hcount
  · obtain ⟨-, x, y, hrender, hoffset⟩ := CallRule.exists_of_mem_sites hsite
    rw [hrender, hoffset, Nat.zero_add, List.drop_left]
    exact List.prefix_append _ y
  · obtain ⟨o, ho, rfl⟩ := Outline.exists_text_eq standard_separated.mark start
    rw [plan_text standard_separated ho] at hsite ⊢
    exact standard_separated.declaredAt_iff ho hsite

/-- Two rerouted calls, of which only the second is in the declaration of its unit. -/
theorem standard_declaredAt_iff_two_calls :
    let t : Text := "use std::sync::Arc;fn success_log;async fn read_file(x);" ++
      "async fn other(y)\x7bCallToolResult::success(y)\x7d" ++
      "async fn write_file(z)\x7bCallToolResult::success(z)\x7d"
    ∃ out report, (standard.apply t).result = .ok (out, report) ∧ report.rerouteCount = 2 ∧
      ∃ start installed, standard.helper.install standard.anchor t = .ok (start, installed) ∧
        out = standard.callRule.render (standard.plan start) ∧
        report.rerouteCount = (standard.callRule.sites 0 (standard.plan start)).length ∧
        ∀ site ∈ standard.callRule.sites 0 (standard.plan start),
          standard.callRule.opening site.1 <+: out.drop site.2 ∧
          ∃ span, standard.landmarks.locate site.1.name start = .ok span ∧
            (standard.landmarks.DeclaredAt site.1.name out site.2 ↔
              standard.landmarks.DeclaredAt site.1.name start span.start.toNat) := by
  intro t
  have hdone : (standard.apply t).result.toOption.map (·.2.rerouteCount) = some 2 := by
    decide +kernel
  obtain ⟨out, report, h, hcount⟩ := exists_of_apply_map hdone
  exact ⟨out, report, h, hcount, standard_declaredAt_iff h⟩

/-- A unit that is declared without a body takes the call of the unit after it. -/
theorem standard_apply_takes_sibling :
    let r : Route := ⟨"read_file", "read", "args.path.clone()", "\"Read file contents\""⟩
    let before : Text :=
      "use std::sync::Arc;fn success_log;async fn read_file(x);async fn other(y)\x7b"
    let out : Text := before ++ standard.callRule.opening r ++ "y)\x7d"
    r ∈ standard.routes ∧
      (standard.apply (before ++ standard.target ++ "y)\x7d")).result.map Prod.fst = .ok out ∧
      standard.callRule.opening r <+: out.drop before.length ∧
      ¬ standard.landmarks.DeclaredAt r.name out before.length := by
  decide +kernel

end Profile

end Reroute
