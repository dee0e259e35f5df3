import Reroute.Proofs.Pass

/-!
# Plans

A pass looks for every unit in the text that the units before it have left. A plan does without: it
looks for all units once, in the text at the start of the pass, and then goes through the text from
left to right. Every call that lies in the body of a located unit is rerouted for the first route
with that body, and every other byte is kept. For a separated profile a pass writes what the plan
says, because no turn of a route changes where the others find their units.

## Main definitions

* `Mend` — a kept byte or a rerouted call
* `Profile.located` — the units that a text declares, with the spans of their bodies
* `Profile.plan` — what becomes of a text
* `Outline.plan` — the same, section by section

## Main results

* `Profile.plan_text` — the plan of a text goes by the sections of its outline
* `Outline.text_foldl_patch`, `Outline.callsOf_eq` — turns one after the other carry out the plan
* `Profile.standard_apply_eq_plan` — a pass of the standard profile carries out the plan
-/

namespace Reroute

open Text

open Landmarks (brace)

/-- What becomes of a place in a text. -/
inductive Mend where
  /-- A byte stays. -/
  | keep (b : UInt8)
  /-- A call is rerouted. -/
  | reroute (r : Route)
deriving DecidableEq, Repr

namespace Mend

/-- What stands at the place in the new text. -/
def text (c : CallRule) : Mend → Text
  | keep b => [b]
  | reroute r => c.opening r

/-- Whether a call is rerouted. -/
def isReroute : Mend → Bool
  | keep _ => false
  | reroute _ => true

end Mend

/-- The text that mends give. -/
def CallRule.render (c : CallRule) (ms : List Mend) : Text := ms.flatMap (Mend.text c)

/-- Whether a stretch of some size from an offset on lies in a span. -/
def Span.Covers (s : Span) (offset size : Nat) : Prop :=
  s.start ≤ offset ∧ ((offset + size : Nat) : Int) ≤ s.stop

instance (s : Span) (offset size : Nat) : Decidable (s.Covers offset size) :=
  inferInstanceAs (Decidable (s.start ≤ offset ∧ ((offset + size : Nat) : Int) ≤ s.stop))

/-- The first of some located units whose span covers a stretch. -/
def owner? (units : List (Route × Span)) (offset size : Nat) : Option Route :=
  (units.find? fun u => u.2.Covers offset size).map Prod.fst

/-- The route for which a call at the start of a text is rerouted. -/
def callAt? (target : Text) (units : List (Route × Span)) (offset : Nat) (t : Text) :
    Option Route :=
  if target ≠ [] ∧ target <+: t then owner? units offset target.length else none

/-- Goes through a text that starts at an offset, from left to right. Behind a rerouted call the
search goes on after the call. -/
def scan (target : Text) (units : List (Route × Span)) (offset : Nat) (t : Text) : List Mend :=
  match t with
  | [] => []
  | b :: rest =>
    match callAt? target units offset (b :: rest) with
    | none => .keep b :: scan target units (offset + 1) rest
    | some r =>
      .reroute r :: scan target units (offset + target.length) (rest.drop (target.length - 1))
termination_by t.length

namespace Profile

/-- The units that a text declares with the spans of their bodies, in the order of the routes. -/
def located (p : Profile) (t : Text) : List (Route × Span) :=
  p.routes.filterMap fun r => ((p.landmarks.locate r.name t).toOption).map fun span => (r, span)

/-- What becomes of a text if all units are located at once. -/
def plan (p : Profile) (t : Text) : List Mend := scan p.target (p.located t) 0 t

end Profile

/-! ### Mends -/

section Mends

variable {c : CallRule} {target b x y : Text} {r : Route}

@[simp]
theorem CallRule.render_nil : c.render [] = [] := rfl

@[simp]
theorem CallRule.render_append (ms ns : List Mend) :
    c.render (ms ++ ns) = c.render ms ++ c.render ns :=
  List.flatMap_append

@[simp]
theorem CallRule.render_cons (m : Mend) (ms : List Mend) :
    c.render (m :: ms) = m.text c ++ c.render ms :=
  List.flatMap_cons

@[simp]
theorem CallRule.render_map_keep (t : Text) : c.render (t.map .keep) = t := by
  induction t with
  | nil => rfl
  | cons b t ih => rw [List.map_cons, render_cons, ih, Mend.text, List.singleton_append]

@[simp]
theorem countP_map_keep (t : Text) : (t.map Mend.keep).countP Mend.isReroute = 0 := by
  rw [List.countP_map, List.countP_eq_zero]
  intro b _
  exact Bool.false_ne_true

/-- The mends of a body that belongs to a route, or to none. -/
def bodyMends (target : Text) (b : Text) : Option Route → List Mend
  | none => b.map .keep
  | some r => [Mend.reroute r].intercalate ((b.pieces target).map fun q => q.map .keep)

theorem intercalate_map_keep (m : Mend) {q : Text} {qs : List Text} (hqs : qs ≠ []) :
    [m].intercalate ((q :: qs).map fun q => q.map Mend.keep) =
      q.map .keep ++ m :: [m].intercalate (qs.map fun q => q.map Mend.keep) := by
  obtain ⟨q', qs', rfl⟩ := List.exists_cons_of_ne_nil hqs
  simp [List.intercalate]

/-- A body without calls is kept, whomever it belongs to. -/
theorem bodyMends_eq_map_keep (h : ¬ target <:+: b) (own : Option Route) :
    bodyMends target b own = b.map .keep := by
  cases own with
  | none => rfl
  | some r => simp [bodyMends, pieces_eq_singleton h, List.intercalate]

theorem bodyMends_of_cut? (ht : target ≠ []) (h : cut? b target = some (x, y)) :
    bodyMends target b (some r) =
      x.map .keep ++ .reroute r :: bodyMends target y (some r) := by
  rw [bodyMends, pieces_of_cut? ht h, intercalate_map_keep _ (pieces_ne_nil y target), bodyMends]

/-- The mends of a body that belongs to a route write the rerouted body. -/
theorem render_bodyMends (b : Text) (r : Route) :
    c.render (bodyMends c.target b (some r)) = c.reroute r b := by
  rw [bodyMends, CallRule.reroute]
  have hne := pieces_ne_nil b c.target
  generalize b.pieces c.target = qs at hne
  induction qs with
  | nil => exact absurd rfl hne
  | cons q qs ih =>
    by_cases hqs : qs = []
    · simp [hqs, List.intercalate]
    · rw [intercalate_map_keep _ hqs, join_cons _ q hqs, ← ih hqs]
      simp [Mend.text]

/-- They reroute a call at every seam of the pieces. -/
theorem countP_bodyMends (b : Text) (r : Route) :
    (bodyMends target b (some r)).countP Mend.isReroute = (b.pieces target).length - 1 := by
  rw [bodyMends]
  have hne := pieces_ne_nil b target
  generalize b.pieces target = qs at hne
  induction qs with
  | nil => exact absurd rfl hne
  | cons q qs ih =>
    by_cases hqs : qs = []
    · simp [hqs, List.intercalate, Mend.isReroute]
    · have hpos := List.length_pos_iff.2 hqs
      rw [intercalate_map_keep _ hqs, List.countP_append, List.countP_cons, ih hqs]
      simp only [countP_map_keep, Mend.isReroute, if_true, List.length_cons]
      omega

end Mends

/-! ### The plan of an outline -/

/-- The mends of a section whose body belongs to a route, or to none. -/
def Section.mends (target : Text) (own : Option Route) (s : Section) : List Mend :=
  s.head.map .keep ++ match s.body with
    | none => []
    | some b => .keep brace :: bodyMends target b own

/-- The mends of sections and the marks before them, if the first section has the index `j`. -/
def sectionsMends (mark target : Text) (own : Nat → Option Route) :
    Nat → List Section → List Mend
  | _, [] => []
  | j, s :: ss =>
    mark.map .keep ++ (s.mends target (own j) ++ sectionsMends mark target own (j + 1) ss)

namespace Outline

/-- The first of some routes whose unit opens the section with an index. -/
def owner? (o : Outline) (rs : List Route) (j : Nat) : Option Route :=
  rs.find? fun r => o.place? r.label = some j

/-- What becomes of an outline in the turns of some routes. -/
def plan (p : Profile) (rs : List Route) (o : Outline) : List Mend :=
  o.preamble.map .keep ++ sectionsMends p.nextUnit p.target (o.owner? rs) 0 o.sections

end Outline

section Sections

variable {c : CallRule} {mark target : Text} {own own' : Nat → Option Route} {s : Section}

theorem Section.mends_of_some {b : Text} (h : s.body = some b) (r : Option Route) :
    s.mends target r = s.head.map .keep ++ .keep brace :: bodyMends target b r := by
  rw [mends, h]

theorem Section.mends_of_none (h : s.body = none) (r : Option Route) :
    s.mends target r = s.head.map .keep := by
  rw [mends, h, List.append_nil]

theorem Section.mends_unowned (s : Section) : s.mends target none = s.text.map .keep := by
  cases h : s.body with
  | none => rw [mends_of_none h, text_of_none h]
  | some b => rw [mends_of_some h, text_of_some h, bodyMends, List.map_append, List.map_cons]

theorem sectionsMends_append (j : Nat) (xs ys : List Section) :
    sectionsMends mark target own j (xs ++ ys) =
      sectionsMends mark target own j xs ++
        sectionsMends mark target own (j + xs.length) ys := by
  induction xs generalizing j with
  | nil => rfl
  | cons x xs ih =>
    have hindex : j + 1 + xs.length = j + (x :: xs).length := by
      rw [List.length_cons]
      omega
    rw [List.cons_append, sectionsMends, ih, sectionsMends, hindex]
    simp only [List.append_assoc]

theorem sectionsMends_congr {j : Nat} {ss : List Section}
    (h : ∀ i, j ≤ i → i < j + ss.length → own i = own' i) :
    sectionsMends mark target own j ss = sectionsMends mark target own' j ss := by
  induction ss generalizing j with
  | nil => rfl
  | cons s ss ih =>
    have hj : own j = own' j := h j (Nat.le_refl j) (by simp)
    have hrest := ih (j := j + 1) fun i hle hlt =>
      h i (by omega) (by rw [List.length_cons]; omega)
    rw [sectionsMends, sectionsMends, hj, hrest]

theorem sectionsMends_unowned (j : Nat) (ss : List Section) :
    sectionsMends mark target (fun _ => none) j ss = (sectionsText mark ss).map .keep := by
  induction ss generalizing j with
  | nil => rfl
  | cons s ss ih =>
    rw [sectionsMends, ih, Section.mends_unowned, sectionsText_cons, List.map_append,
      List.map_append]

end Sections

/-! ### Turns carry out the plan -/

namespace Outline

variable {p : Profile} {r : Route} {rs : List Route} {o : Outline}

/-- Without routes everything is kept. -/
theorem plan_nil (p : Profile) (o : Outline) : o.plan p [] = (o.text p.nextUnit).map .keep := by
  have howner : o.owner? [] = fun _ => none := rfl
  rw [plan, howner, sectionsMends_unowned, text, List.map_append]

/-- A unit that is not declared owns nothing. -/
theorem plan_cons_of_none (h : o.place? r.label = none) : o.plan p (r :: rs) = o.plan p rs := by
  have howner : o.owner? (r :: rs) = o.owner? rs := by
    funext j
    rw [owner?, List.find?_cons_of_neg (by simp [h]), owner?]
  rw [plan, howner, plan]

/-- The mends around the section that a route is the first to own, in its plan and in the plan of
the routes after it on the outline that its turn leaves. -/
theorem exists_plan_eq {xs ys : List Section} {s : Section} (hss : o.sections = xs ++ s :: ys)
    (h : o.place? r.label = some xs.length) (rs : List Route) :
    ∃ ms ns, o.plan p (r :: rs) = ms ++ (s.mends p.target (some r) ++ ns) ∧
      (o.patch p r).plan p rs = ms ++
        ((s.mapBody (p.callRule.reroute r)).mends p.target (o.owner? rs xs.length) ++ ns) := by
  have hhere : o.owner? (r :: rs) xs.length = some r := by
    rw [owner?, List.find?_cons_of_pos (by simp [h])]
  -- every other section has the owner that it has without the route
  have helse : ∀ j, j ≠ xs.length → o.owner? (r :: rs) j = o.owner? rs j := by
    intro j hj
    rw [owner?, List.find?_cons_of_neg, owner?]
    rw [h, decide_eq_true_iff, Option.some_inj]
    exact hj.symm
  -- and the turn changes no owner, since no declaration moves
  have hpatch : (o.patch p r).owner? rs = o.owner? rs := by
    funext j
    simp only [owner?, place?_patch]
  refine ⟨o.preamble.map .keep ++
      (sectionsMends p.nextUnit p.target (o.owner? rs) 0 xs ++ p.nextUnit.map .keep),
    sectionsMends p.nextUnit p.target (o.owner? rs) (xs.length + 1) ys, ?_, ?_⟩
  · have hbefore : sectionsMends p.nextUnit p.target (o.owner? (r :: rs)) 0 xs =
        sectionsMends p.nextUnit p.target (o.owner? rs) 0 xs :=
      sectionsMends_congr fun j _ hlt => helse j (by omega)
    have hafter : sectionsMends p.nextUnit p.target (o.owner? (r :: rs)) (xs.length + 1) ys =
        sectionsMends p.nextUnit p.target (o.owner? rs) (xs.length + 1) ys :=
      sectionsMends_congr fun j hle _ => helse j (by omega)
    rw [plan, hss, sectionsMends_append, Nat.zero_add, sectionsMends, hhere, hbefore, hafter]
    simp only [List.append_assoc]
  · rw [plan, hpatch, patch_of_some hss h, sectionsMends_append, Nat.zero_add, sectionsMends]
    simp only [List.append_assoc]

/-- A turn carries out its part of the plan: what it writes is what the plan writes, and the calls
that it meets are the ones that the plan has more than the plan of the turns to come. -/
theorem plan_patch (hp : p.Separated) (hr : r ∈ p.routes) (rs : List Route) (o : Outline) :
    p.callRule.render ((o.patch p r).plan p rs) = p.callRule.render (o.plan p (r :: rs)) ∧
      (o.plan p (r :: rs)).countP Mend.isReroute =
        o.calls p r + ((o.patch p r).plan p rs).countP Mend.isReroute := by
  cases h : o.place? r.label with
  | none =>
    have hcalls : o.calls p r = 0 := by rw [calls, h]
    rw [plan_cons_of_none h, patch_of_none h, hcalls, Nat.zero_add]
    exact ⟨rfl, rfl⟩
  | some j =>
    obtain ⟨xs, s, b, ys, hss, rfl, hb⟩ := exists_of_place h
    obtain ⟨ms, ns, hplan, hnext⟩ := exists_plan_eq (p := p) hss h rs
    -- the body that the turn leaves has no call, so the routes to come keep it as it is
    have hbody := Section.body_mapBody hb (p.callRule.reroute r)
    have hkept := bodyMends_eq_map_keep (not_target_infix_reroute hp hr b)
      (o.owner? rs xs.length)
    have hrender : p.callRule.render (bodyMends p.target b (some r)) = p.callRule.reroute r b :=
      render_bodyMends b r
    rw [hplan, hnext, Section.mends_of_some hbody, Section.mends_of_some hb, hkept,
      calls_eq hss hb h]
    constructor
    · simp [hrender, Section.mapBody]
    · simp only [List.countP_append, List.countP_cons, countP_map_keep, countP_bodyMends,
        Mend.isReroute, Section.mapBody]
      omega

/-- Turns one after the other write what the plan says. -/
theorem text_foldl_patch (hp : p.Separated) (hrs : ∀ r ∈ rs, r ∈ p.routes) (o : Outline) :
    (rs.foldl (patch p) o).text p.nextUnit = p.callRule.render (o.plan p rs) := by
  induction rs generalizing o with
  | nil => rw [List.foldl_nil, plan_nil, CallRule.render_map_keep]
  | cons r rs ih =>
    rw [List.foldl_cons, ih (fun r' h => hrs r' (List.mem_cons_of_mem r h)),
      (plan_patch hp (hrs r List.mem_cons_self) rs o).1]

/-- Turns one after the other meet the calls that the plan reroutes. -/
theorem callsOf_eq (hp : p.Separated) (hrs : ∀ r ∈ rs, r ∈ p.routes) (o : Outline) :
    p.callsOf rs o = (o.plan p rs).countP Mend.isReroute := by
  induction rs generalizing o with
  | nil => rw [plan_nil, countP_map_keep, Profile.callsOf]
  | cons r rs ih =>
    rw [Profile.callsOf, ih (fun r' h => hrs r' (List.mem_cons_of_mem r h)),
      (plan_patch hp (hrs r List.mem_cons_self) rs o).2]

end Outline

/-! ### Scanning -/

section Scan

variable {target x y b : Text} {units : List (Route × Span)} {offset : Nat} {r : Route}

/-- Text in which no call is rerouted is kept. -/
theorem scan_append_of_kept
    (h : ∀ u v, x = u ++ v → v ≠ [] →
      target <+: v ++ y → owner? units (offset + u.length) target.length = none) :
    scan target units offset (x ++ y) =
      x.map .keep ++ scan target units (offset + x.length) y := by
  induction x generalizing offset with
  | nil => rfl
  | cons c x ih =>
    have hcall : callAt? target units offset (c :: (x ++ y)) = none := by
      rw [callAt?, ite_eq_right_iff]
      rintro ⟨-, hpre⟩
      exact h [] (c :: x) rfl (by simp) hpre
    have hrest : scan target units (offset + 1) (x ++ y) = _ := ih fun u v huv hv hpre => by
      have := h (c :: u) v (by rw [huv, List.cons_append]) hv hpre
      rwa [List.length_cons, Nat.add_comm u.length, ← Nat.add_assoc] at this
    rw [List.cons_append, scan, hcall]
    simp only [hrest, List.map_cons, List.cons_append, List.length_cons]
    rw [Nat.add_comm x.length, ← Nat.add_assoc]

/-- Text in which nobody owns a stretch is kept. -/
theorem scan_append_unowned
    (h : ∀ k, k < x.length → owner? units (offset + k) target.length = none) :
    scan target units offset (x ++ y) =
      x.map .keep ++ scan target units (offset + x.length) y := by
  refine scan_append_of_kept ?_
  rintro u v rfl hv -
  refine h u.length ?_
  simpa [List.length_pos_iff] using hv

theorem scan_append_call (ht : target ≠ [])
    (h : owner? units offset target.length = some r) :
    scan target units offset (target ++ y) =
      .reroute r :: scan target units (offset + target.length) y := by
  obtain ⟨c, w, rfl⟩ := List.exists_cons_of_ne_nil ht
  have hcall : callAt? (c :: w) units offset (c :: w ++ y) = some r := by
    rw [callAt?, if_pos ⟨ht, List.prefix_append _ y⟩, h]
  rw [List.cons_append, scan, ← List.cons_append, hcall]
  simp

private theorem scan_append_owned (ht : target ≠ [])
    (hin : ∀ k, k + target.length ≤ b.length →
      owner? units (offset + k) target.length = some r)
    (hout : ∀ k, k < b.length → b.length < k + target.length →
      owner? units (offset + k) target.length = none) :
    scan target units offset (b ++ y) =
      bodyMends target b (some r) ++ scan target units (offset + b.length) y := by
  -- along the calls of the body: behind a call the same holds of what is left
  induction b using cut_induction ht generalizing offset with
  | free b hfree =>
    rw [bodyMends_eq_map_keep hfree]
    refine scan_append_of_kept ?_
    rintro u v rfl hv hpre
    refine hout u.length ?_ ?_
    · simpa [List.length_pos_iff] using hv
    · by_contra hle
      rw [List.length_append] at hle
      have hv : target <+: v :=
        List.prefix_of_prefix_length_le hpre (List.prefix_append v y) (by omega)
      exact hfree (List.infix_append_of_infix_right hv.isInfix)
  | cut b z w hcut ih =>
    obtain ⟨rfl, hfirst⟩ := (cut?_eq_some_iff ht).1 hcut
    simp only [List.length_append] at hin hout
    have hkept : scan target units offset (z ++ (target ++ (w ++ y))) =
        z.map .keep ++ scan target units (offset + z.length) (target ++ (w ++ y)) := by
      refine scan_append_of_kept ?_
      rintro u v rfl hv hpre
      -- a call that starts before the first one would lie in what stands before it
      refine absurd ?_ hfirst
      rw [List.append_assoc]
      exact List.infix_append_of_infix_right (prefix_append_dropLast hv hpre).isInfix
    have hcall := scan_append_call (y := w ++ y) ht (hin z.length (by omega))
    have hrest : scan target units (offset + z.length + target.length) (w ++ y) =
        bodyMends target w (some r) ++
          scan target units (offset + z.length + target.length + w.length) y := by
      refine ih ?_ ?_
      · intro k hk
        have := hin (z.length + target.length + k) (by omega)
        rwa [← Nat.add_assoc, ← Nat.add_assoc] at this
      · intro k hk hk'
        have := hout (z.length + target.length + k) (by omega) (by omega)
        rwa [← Nat.add_assoc, ← Nat.add_assoc] at this
    rw [bodyMends_of_cut? ht hcut, List.append_assoc, List.append_assoc, hkept, hcall, hrest,
      List.append_assoc, List.cons_append]
    simp only [List.length_append, Nat.add_assoc]

/-- A body is scanned on its own, if the calls inside of it belong to one route or to none, and
those that run out of it to none. -/
theorem scan_append_body (ht : target ≠ []) {own : Option Route}
    (hin : ∀ k, k + target.length ≤ b.length → owner? units (offset + k) target.length = own)
    (hout : ∀ k, k < b.length → b.length < k + target.length →
      owner? units (offset + k) target.length = none) :
    scan target units offset (b ++ y) =
      bodyMends target b own ++ scan target units (offset + b.length) y := by
  cases own with
  | some r => exact scan_append_owned ht hin hout
  | none =>
    refine scan_append_of_kept ?_
    rintro u v rfl hv -
    by_cases hle : u.length + target.length ≤ (u ++ v).length
    · exact hin u.length hle
    · refine hout u.length ?_ (by omega)
      simpa [List.length_pos_iff] using hv

end Scan

/-! ### The plan of a text -/

namespace Outline

variable {mark : Text} {o : Outline} {xs ys xs' ys' : List Section} {s s' : Section} {b b' : Text}

/-- The offset of the mark behind some sections. -/
def offset (mark : Text) (o : Outline) (xs : List Section) : Nat :=
  o.preamble.length + (sectionsText mark xs).length

theorem offset_append_cons (mark : Text) (o : Outline) (xs : List Section) (s : Section)
    (ys : List Section) :
    o.offset mark (xs ++ s :: ys) =
      o.offset mark xs + mark.length + s.text.length + (sectionsText mark ys).length := by
  simp only [offset, sectionsText_append, sectionsText_cons, List.length_append]
  omega

theorem length_upTo (mark : Text) (o : Outline) (xs : List Section) (s : Section) :
    (o.upTo mark xs s).length = o.offset mark xs + mark.length + s.head.length + 1 := by
  simp only [upTo, offset, List.length_append, List.length_singleton]
  omega

theorem offset_append_of_some (mark : Text) (o : Outline) (xs ys : List Section)
    (hb : s.body = some b) :
    o.offset mark (xs ++ s :: ys) =
      (o.upTo mark xs s).length + b.length + (sectionsText mark ys).length := by
  rw [offset_append_cons, length_upTo, Section.text_of_some hb, List.length_append,
    List.length_cons]
  omega

private theorem split_cases {α : Type} {xs ys xs' ys' : List α} {a a' : α}
    (h : xs ++ a :: ys = xs' ++ a' :: ys') :
    (xs' = xs ∧ a' = a) ∨ (∃ ws, xs' = xs ++ a :: ws) ∨ ∃ ws, xs = xs' ++ a' :: ws := by
  rcases List.append_eq_append_iff.1 h with ⟨as, rfl, has⟩ | ⟨as, rfl, has⟩ <;> cases as with
  | nil => simp_all
  | cons w ws => simp_all

/-- Which stretches the body of a section covers that start in a section: only those in its own
body. -/
theorem span_covers_iff (hss : o.sections = xs ++ s :: ys) (hss' : o.sections = xs' ++ s' :: ys')
    (hb' : s'.body = some b') {i n : Nat} (hn : 0 < n) (hlo : o.offset mark xs ≤ i)
    (hhi : i < o.offset mark (xs ++ [s])) :
    (o.span mark xs'.length).Covers i n ↔ xs'.length = xs.length ∧
      (o.upTo mark xs s).length ≤ i ∧
        i + n ≤ (o.upTo mark xs s).length + (s.body.getD []).length := by
  rw [span_eq hss' hb', Span.Covers]
  simp only [Nat.cast_le]
  rcases split_cases (hss.symm.trans hss') with ⟨rfl, rfl⟩ | ⟨ws, rfl⟩ | ⟨ws, rfl⟩
  · simp [hb']
  · -- a later section opens its body behind the stretch
    have hlater := length_upTo mark o (xs ++ s :: ws) s'
    rw [offset_append_cons] at hhi hlater
    simp only [sectionsText_nil, List.length_nil] at hhi
    simp only [List.length_append, List.length_cons]
    omega
  · -- the body of an earlier section ends before the stretch
    rw [offset_append_of_some _ _ _ _ hb'] at hlo
    simp only [List.length_append, List.length_cons]
    omega

/-- No body covers a part of the preamble. -/
theorem not_span_covers_preamble (hss : o.sections = xs ++ s :: ys) (hb : s.body = some b)
    {i n : Nat} (hi : i < o.preamble.length) : ¬ (o.span mark xs.length).Covers i n := by
  rw [span_eq hss hb, Span.Covers, length_upTo, offset]
  simp only [Nat.cast_le]
  omega

/-- The bodies of two sections are the same, or the mark of one lies between them. -/
theorem span_eq_or_lt (hm : IsMark mark) (hss : o.sections = xs ++ s :: ys) (hb : s.body = some b)
    (hss' : o.sections = xs' ++ s' :: ys') (hb' : s'.body = some b') :
    o.span mark xs.length = o.span mark xs'.length ∨
      (o.span mark xs.length).stop < (o.span mark xs'.length).start ∨
      (o.span mark xs'.length).stop < (o.span mark xs.length).start := by
  have hpos := List.length_pos_iff.2 hm.ne_nil
  rcases split_cases (hss.symm.trans hss') with ⟨rfl, rfl⟩ | ⟨ws, rfl⟩ | ⟨ws, rfl⟩
  · exact .inl rfl
  · refine .inr (.inl ?_)
    have hlater := length_upTo mark o (xs ++ s :: ws) s'
    rw [offset_append_of_some _ _ _ _ hb] at hlater
    rw [span_eq hss hb, span_eq hss' hb', Nat.cast_lt]
    omega
  · refine .inr (.inr ?_)
    have hlater := length_upTo mark o (xs' ++ s' :: ws) s
    rw [offset_append_of_some _ _ _ _ hb'] at hlater
    rw [span_eq hss hb, span_eq hss' hb', Nat.cast_lt]
    omega

end Outline

namespace Profile

variable {p : Profile} {o : Outline} {xs ys : List Section} {s : Section} {i n : Nat}

/-- The located units of a text are the routes that have a place in its outline. -/
theorem located_text (hp : p.Separated) (ho : o.Fits p.nextUnit) :
    p.located (o.text p.nextUnit) =
      p.routes.filterMap fun r => (o.place? r.label).map fun j => (r, o.span p.nextUnit j) := by
  rw [located]
  refine List.filterMap_congr fun r hr => ?_
  rw [hp.locate_text hr ho]
  cases o.place? r.label with
  | none => rfl
  | some j => rfl

/-- The owner of a stretch is the first route whose body covers it. -/
theorem owner?_located (hp : p.Separated) (ho : o.Fits p.nextUnit) :
    owner? (p.located (o.text p.nextUnit)) i n =
      p.routes.find? fun r =>
        (o.place? r.label).any fun j => (o.span p.nextUnit j).Covers i n := by
  rw [located_text hp ho, owner?, List.find?_filterMap]
  simp only [Option.any_map]
  cases h : p.routes.find? fun r =>
      (o.place? r.label).any fun j => decide ((o.span p.nextUnit j).Covers i n) with
  | none => rfl
  | some r =>
    have hany := List.find?_some h
    obtain ⟨j, hj, -⟩ := (Option.any_eq_true _ _).1 hany
    simp [hj]

/-- A stretch that starts in a section belongs to the owner of the section if it lies in its body,
and else to nobody. -/
theorem owner?_located_section (hp : p.Separated) (ho : o.Fits p.nextUnit)
    (hss : o.sections = xs ++ s :: ys) (hn : 0 < n) (hlo : o.offset p.nextUnit xs ≤ i)
    (hhi : i < o.offset p.nextUnit (xs ++ [s])) :
    owner? (p.located (o.text p.nextUnit)) i n =
      if (o.upTo p.nextUnit xs s).length ≤ i ∧
          i + n ≤ (o.upTo p.nextUnit xs s).length + (s.body.getD []).length then
        o.owner? p.routes xs.length
      else none := by
  -- what the spans of all placed units have in common here
  have hcovers : ∀ (r : Route) j, o.place? r.label = some j →
      ((o.span p.nextUnit j).Covers i n ↔ j = xs.length ∧
        (o.upTo p.nextUnit xs s).length ≤ i ∧
          i + n ≤ (o.upTo p.nextUnit xs s).length + (s.body.getD []).length) := by
    intro r j hj
    obtain ⟨xs', s', b', ys', hss', rfl, hb'⟩ := exists_of_place hj
    exact Outline.span_covers_iff hss hss' hb' hn hlo hhi
  rw [owner?_located hp ho]
  split
  · rename_i hin
    rw [Outline.owner?]
    congr 1
    funext r
    cases hj : o.place? r.label with
    | none => simp
    | some j => simp [hcovers r j hj, hin]
  · rename_i hout
    rw [List.find?_eq_none]
    intro r _ hany
    obtain ⟨j, hj, hcov⟩ := (Option.any_eq_true _ _).1 hany
    exact hout ((hcovers r j hj).1 (of_decide_eq_true hcov)).2

theorem owner?_located_preamble (hp : p.Separated) (ho : o.Fits p.nextUnit)
    (hi : i < o.preamble.length) : owner? (p.located (o.text p.nextUnit)) i n = none := by
  rw [owner?_located hp ho, List.find?_eq_none]
  intro r _ hany
  obtain ⟨j, hj, hcov⟩ := (Option.any_eq_true _ _).1 hany
  obtain ⟨xs, s, b, ys, hss, rfl, hb⟩ := exists_of_place hj
  exact Outline.not_span_covers_preamble hss hb hi (of_decide_eq_true hcov)

/-- A section is scanned on its own. -/
theorem scan_section (hp : p.Separated) (ho : o.Fits p.nextUnit)
    (hss : o.sections = xs ++ s :: ys) (z : Text) :
    scan p.target (p.located (o.text p.nextUnit)) (o.offset p.nextUnit xs)
        (p.nextUnit ++ (s.text ++ z)) =
      p.nextUnit.map .keep ++ (s.mends p.target (o.owner? p.routes xs.length) ++
        scan p.target (p.located (o.text p.nextUnit)) (o.offset p.nextUnit (xs ++ [s])) z) := by
  have hpos := List.length_pos_iff.2 hp.target_ne_nil
  have howner := fun i => owner?_located_section (n := p.target.length) (i := i) hp ho hss hpos
  cases hb : s.body with
  | none =>
    -- without a body nothing is owned
    have hend : o.offset p.nextUnit (xs ++ [s]) =
        o.offset p.nextUnit xs + (p.nextUnit ++ s.head).length := by
      rw [Outline.offset_append_cons, Section.text_of_none hb, List.length_append]
      simp [Nat.add_assoc]
    have hkept : scan p.target (p.located (o.text p.nextUnit)) (o.offset p.nextUnit xs)
        ((p.nextUnit ++ s.head) ++ z) = _ := scan_append_unowned fun k hk => by
      rw [howner _ (by omega) (by omega), if_neg]
      rw [hb, Option.getD_none, List.length_nil]
      omega
    rw [Section.text_of_none hb, Section.mends_of_none hb, ← List.append_assoc, hkept, hend,
      List.map_append, List.append_assoc]
  | some b =>
    -- up to the brace nothing is owned, and from there on it is the body
    have hstart : (o.upTo p.nextUnit xs s).length =
        o.offset p.nextUnit xs + (p.nextUnit ++ (s.head ++ [brace])).length := by
      rw [Outline.length_upTo]
      simp [Nat.add_assoc]
    have hend := Outline.offset_append_of_some p.nextUnit o xs [] hb
    rw [sectionsText_nil, List.length_nil, Nat.add_zero] at hend
    have hhead : scan p.target (p.located (o.text p.nextUnit)) (o.offset p.nextUnit xs)
        ((p.nextUnit ++ (s.head ++ [brace])) ++ (b ++ z)) = _ :=
      scan_append_unowned fun k hk => by
        rw [howner _ (by omega) (by omega), if_neg]
        omega
    have hbody : scan p.target (p.located (o.text p.nextUnit)) (o.upTo p.nextUnit xs s).length
        (b ++ z) = bodyMends p.target b (o.owner? p.routes xs.length) ++
          scan p.target (p.located (o.text p.nextUnit))
            ((o.upTo p.nextUnit xs s).length + b.length) z := by
      refine scan_append_body hp.target_ne_nil ?_ ?_
      · intro k hk
        rw [howner _ (by omega) (by omega), if_pos]
        rw [hb, Option.getD_some]
        omega
      · intro k hk hlt
        rw [howner _ (by omega) (by omega), if_neg]
        rw [hb, Option.getD_some]
        omega
    rw [← hstart, hbody, ← hend] at hhead
    rw [Section.text_of_some hb, Section.mends_of_some hb]
    simpa using hhead

/-- Scanning goes through the sections one by one. -/
theorem scan_sections (hp : p.Separated) (ho : o.Fits p.nextUnit) (h : o.sections = xs ++ ys) :
    scan p.target (p.located (o.text p.nextUnit)) (o.offset p.nextUnit xs)
        (sectionsText p.nextUnit ys) =
      sectionsMends p.nextUnit p.target (o.owner? p.routes) xs.length ys := by
  induction ys generalizing xs with
  | nil =>
    rw [sectionsText_nil, sectionsMends]
    simp [scan]
  | cons s ys ih =>
    have hrest := @ih (xs ++ [s]) (by rw [h, List.append_assoc, List.singleton_append])
    rw [List.length_append, List.length_singleton] at hrest
    rw [sectionsText_cons, sectionsMends, scan_section hp ho h, hrest]

/-- The plan of a text is the plan of its outline. -/
theorem plan_text (hp : p.Separated) (ho : o.Fits p.nextUnit) :
    p.plan (o.text p.nextUnit) = o.plan p p.routes := by
  have hstart : o.offset p.nextUnit [] = 0 + o.preamble.length := by
    simp [Outline.offset]
  -- no body starts before the first mark
  have hpreamble : scan p.target (p.located (o.text p.nextUnit)) 0
      (o.preamble ++ sectionsText p.nextUnit o.sections) = _ :=
    scan_append_unowned fun k hk => owner?_located_preamble hp ho (by omega)
  rw [← hstart, scan_sections hp ho (List.nil_append _).symm] at hpreamble
  exact hpreamble

/-- The bodies of two located units are the same, or they keep apart. -/
theorem pairwise_located (hp : p.Separated) (ho : o.Fits p.nextUnit) :
    (p.located (o.text p.nextUnit)).Pairwise fun u v =>
      u.2 = v.2 ∨ u.2.stop < v.2.start ∨ v.2.stop < u.2.start := by
  refine List.pairwise_of_forall_mem_list fun u hu v hv => ?_
  rw [located_text hp ho, List.mem_filterMap] at hu hv
  obtain ⟨r, -, hr⟩ := hu
  obtain ⟨r', -, hr'⟩ := hv
  obtain ⟨j, hj, rfl⟩ := Option.map_eq_some_iff.1 hr
  obtain ⟨j', hj', rfl⟩ := Option.map_eq_some_iff.1 hr'
  obtain ⟨xs, s, b, ys, hss, rfl, hb⟩ := exists_of_place hj
  obtain ⟨xs', s', b', ys', hss', rfl, hb'⟩ := exists_of_place hj'
  exact Outline.span_eq_or_lt hp.mark hss hb hss' hb'

/-! ### Passes -/

/-- A pass carries out the plan of the text that has the helper. -/
theorem Separated.apply_eq_plan (hp : p.Separated) {t start : Text} {installed : Bool}
    (h : p.helper.install p.anchor t = .ok (start, installed)) :
    ∃ units, (p.apply t).result = .ok (p.callRule.render (p.plan start),
        ⟨[], installed, units, .ofText t, .ofText (p.callRule.render (p.plan start))⟩) ∧
      units.foldr (fun u n => u.lines.length + n) 0 = (p.plan start).countP Mend.isReroute := by
  obtain ⟨o, ho, rfl⟩ := Outline.exists_text_eq hp.mark start
  obtain ⟨units, hrun, hsum⟩ := hp.apply_text h ho
  rw [Outline.text_foldl_patch hp (fun _ hr => hr)] at hrun
  rw [Outline.callsOf_eq hp (fun _ hr => hr)] at hsum
  rw [plan_text hp ho]
  exact ⟨units, hrun, hsum⟩

end Profile

/-- A text with the anchor takes the helper. -/
theorem Helper.exists_install (h : Helper) {anchor t : Text} (hne : anchor ≠ [])
    (hin : t.includes anchor = true) :
    ∃ start installed, h.install anchor t = .ok (start, installed) := by
  obtain ⟨⟨before, after⟩, hcut⟩ := Option.isSome_iff_exists.1 hin
  rw [install, if_neg (by simpa using hne), hcut]
  simp only
  split
  · exact ⟨_, _, rfl⟩
  · exact ⟨_, _, rfl⟩

namespace Profile

/-- A pass of the standard profile over a text with the anchor succeeds and carries out the plan of
the text that has the helper. The located bodies never overlap, so the owner of a call is the first
route with the body that the call lies in. -/
theorem standard_apply_eq_plan (t : Text) (h : t.includes standard.anchor = true) :
    ∃ start installed report,
      standard.helper.install standard.anchor t = .ok (start, installed) ∧
      (standard.located start).Pairwise (fun u v =>
        u.2 = v.2 ∨ u.2.stop < v.2.start ∨ v.2.stop < u.2.start) ∧
      (standard.apply t).result = .ok (standard.callRule.render (standard.plan start), report) ∧
      report.rerouteCount = (standard.plan start).countP Mend.isReroute := by
  obtain ⟨start, installed, hinstall⟩ :=
    standard.helper.exists_install (by decide +kernel) h
  obtain ⟨units, happly, hcount⟩ := standard_separated.apply_eq_plan hinstall
  obtain ⟨o, ho, hstart⟩ := Outline.exists_text_eq standard_separated.mark start
  refine ⟨start, installed, _, hinstall, ?_, happly, hcount⟩
  rw [← hstart]
  exact pairwise_located standard_separated ho

/-- Two declarations that run into the same body: its calls are rerouted for the unit that comes
first among the routes, not in the text. -/
theorem standard_apply_eq_plan_shared_body :
    let t : Text := "use std::sync::Arc;\nfn success_log();\nasync fn write_file(a);\n" ++
      "async fn read_file(b) \x7b CallToolResult::success(CallToolResult::success(b)) \x7d"
    let read : Route := ⟨"read_file", "read", "args.path.clone()", "\"Read file contents\""⟩
    let write : Route :=
      ⟨"write_file", "write", "args.path.clone()", "&format!(\"Wrote file: \x7b\x7d\", args.path)"⟩
    standard.located t = [(read, ⟨85, 139⟩), (write, ⟨85, 139⟩)] ∧
      (standard.plan t).filter Mend.isReroute = [.reroute read, .reroute read] ∧
      ∃ report, report.rerouteCount = 2 ∧
        (standard.apply t).result = .ok (standard.callRule.render (standard.plan t), report) := by
  intro t read write
  have hplan : (standard.plan t).filter Mend.isReroute = [.reroute read, .reroute read] := by
    decide +kernel
  obtain ⟨start, installed, report, hinstall, -, hresult, hcount⟩ :=
    standard_apply_eq_plan t (by decide +kernel)
  -- the helper is there already
  have hstart : standard.helper.install standard.anchor t = .ok (t, false) := by decide +kernel
  rw [hstart] at hinstall
  cases hinstall
  refine ⟨by decide +kernel, hplan, report, ?_, hresult⟩
  rw [hcount, List.countP_eq_length_filter, hplan]
  rfl

end Profile

end Reroute
