import Reroute.Proofs.Signature

/-!
# Outlines of texts

If units are declared by the mark that also ends a body, a text is a preamble and a list of
sections, each with the mark before it. A section is a head without a brace and, behind the first
brace, a body. A declaration can only start at a section, a signature always ends at the first brace
from there on, and the body that it opens is exactly the body of a section. So where a unit is
located depends on the shapes of the sections, their heads and whether they have bodies, and not on
what the bodies say.

## Main definitions

* `Section`, `Outline` — the sections of a text, and the text as preamble and sections
* `IsMark`, `IsLabel` — what marks and names must be like to be told apart
* `place` — the index of the section whose body a declaration opens

## Main results

* `Outline.exists_text_eq` — every text has an outline
* `Outline.locate_text` — locating a unit is placing its label
-/

namespace Reroute

open Text

open Landmarks (brace)

/-- What follows a mark, up to the next one. -/
structure Section where
  /-- What stands before the first opening brace. -/
  head : Text
  /-- What follows that brace, if there is one. -/
  body : Option Text
  closed : brace ∉ head

namespace Section

/-- The text of a section. -/
def text (s : Section) : Text :=
  s.head ++ match s.body with
    | none => []
    | some b => brace :: b

theorem text_of_none {s : Section} (h : s.body = none) : s.text = s.head := by
  rw [text, h, List.append_nil]

theorem text_of_some {s : Section} {b : Text} (h : s.body = some b) :
    s.text = s.head ++ brace :: b := by
  rw [text, h]

/-- The section with a given text. -/
def ofText (q : Text) : Section where
  head := q.takeWhile (· ≠ brace)
  body := Landmarks.afterBrace? q
  closed hmem := by simpa using List.mem_takeWhile_imp hmem

theorem text_ofText (q : Text) : (ofText q).text = q := by
  by_cases hq : brace ∈ q
  · obtain ⟨x, y, rfl, hx⟩ := List.eq_append_cons_of_mem hq
    have hbody : (ofText (x ++ brace :: y)).body = some y := by
      rw [ofText, Landmarks.afterBrace?_append hx, Landmarks.afterBrace?_brace]
    have hhead : (ofText (x ++ brace :: y)).head = x := by
      change (x ++ brace :: y).takeWhile (· ≠ brace) = x
      rw [List.takeWhile_append_of_pos]
      · simp
      · intro b hb
        simpa using fun he : b = brace => hx (he ▸ hb)
    rw [text_of_some hbody, hhead]
  · have hbody : (ofText q).body = none := Landmarks.afterBrace?_of_not_mem hq
    rw [text_of_none hbody, ofText, List.takeWhile_eq_self_iff]
    intro b hb
    simpa using fun he : b = brace => hq (he ▸ hb)

/-- The section with another body in the place of its body. -/
def mapBody (f : Text → Text) (s : Section) : Section := { s with body := s.body.map f }

theorem body_mapBody {s : Section} {b : Text} (h : s.body = some b) (f : Text → Text) :
    (s.mapBody f).body = some (f b) := by
  rw [mapBody, h, Option.map_some]

/-- What a declaration sees of a section: its head, and whether it has a body. -/
def shape (s : Section) : Text × Bool := (s.head, s.body.isSome)

@[simp]
theorem shape_mapBody (f : Text → Text) (s : Section) : (s.mapBody f).shape = s.shape := by
  simp [shape, mapBody]

/-- A text without a brace occurs in the head or in the body. -/
theorem infix_text_iff {w : Text} (hw : w ≠ []) (hb : brace ∉ w) (s : Section) :
    w <:+: s.text ↔ w <:+: s.head ∨ ∃ b, s.body = some b ∧ w <:+: b := by
  cases h : s.body with
  | none => simp [text_of_none h]
  | some b => simp [text_of_some h, infix_append_cons_iff hw hb]

/-- A section stays without such a text if its body does. -/
theorem not_infix_mapBody {w : Text} (hw : w ≠ []) (hb : brace ∉ w) {s : Section} {f : Text → Text}
    (h : ¬ w <:+: s.text) (hf : ∀ b, ¬ w <:+: b → ¬ w <:+: f b) : ¬ w <:+: (s.mapBody f).text := by
  rw [infix_text_iff hw hb] at h ⊢
  rintro (hhead | ⟨b', hb', hbody⟩)
  · exact h (.inl hhead)
  · obtain ⟨b, hsome, rfl⟩ := Option.map_eq_some_iff.1 hb'
    exact hf b (fun hin => h (.inr ⟨b, hsome, hin⟩)) hbody

end Section

/-! ### Marks and labels -/

/-- A text that can serve as the mark of sections. -/
structure IsMark (mark : Text) : Prop where
  ne_nil : mark ≠ []
  no_brace : brace ∉ mark
  unbordered : Unbordered mark

/-- A text that can follow a mark and open a declaration. -/
structure IsLabel (mark label : Text) : Prop where
  no_brace : brace ∉ label
  apart : Apart label mark

instance (mark : Text) : Decidable (IsMark mark) :=
  decidable_of_iff (mark ≠ [] ∧ brace ∉ mark ∧ Unbordered mark)
    ⟨fun ⟨h₁, h₂, h₃⟩ => ⟨h₁, h₂, h₃⟩, fun ⟨h₁, h₂, h₃⟩ => ⟨h₁, h₂, h₃⟩⟩

instance (mark label : Text) : Decidable (IsLabel mark label) :=
  decidable_of_iff (brace ∉ label ∧ Apart label mark)
    ⟨fun ⟨h₁, h₂⟩ => ⟨h₁, h₂⟩, fun ⟨h₁, h₂⟩ => ⟨h₁, h₂⟩⟩

theorem IsLabel.ne_nil {mark label : Text} (h : IsLabel mark label) : label ≠ [] := by
  rintro rfl
  exact h.apart.not_within List.nil_infix

/-- Sections one after the other, each with the mark before it. -/
def sectionsText (mark : Text) (ss : List Section) : Text := ss.flatMap fun s => mark ++ s.text

section Sections

variable {mark label x y : Text} {s : Section} {ss : List Section}

@[simp]
theorem sectionsText_nil : sectionsText mark [] = [] := rfl

theorem sectionsText_cons :
    sectionsText mark (s :: ss) = mark ++ (s.text ++ sectionsText mark ss) := by
  rw [sectionsText, List.flatMap_cons, List.append_assoc, sectionsText]

theorem sectionsText_append (xs ys : List Section) :
    sectionsText mark (xs ++ ys) = sectionsText mark xs ++ sectionsText mark ys :=
  List.flatMap_append

/-- The text from the body of the section with an index on. -/
def bodyOn (mark : Text) (ss : List Section) (j : Nat) : Text :=
  match ss.drop j with
  | [] => []
  | s :: rest => s.body.getD [] ++ sectionsText mark rest

/-- The index of the section whose body a declaration opens, by the shapes of the sections: the
first section with a body, from the first one whose head starts with the label. Between a label and
its brace something has to stand. -/
def place (label : Text) : List (Text × Bool) → Option Nat
  | [] => none
  | s :: ss =>
    if label <+: s.1 ∧ s ≠ (label, true) then (s :: ss).findIdx? (·.2)
    else (place label ss).map (· + 1)

/-! ### Signatures among sections -/

/-- No mark starts in a text without marks, not even if a mark follows. -/
theorem IsMark.not_prefix_append (hm : IsMark mark) (hx : ¬ mark <:+: x) {u v : Text}
    (huv : x = u ++ v) (hv : v ≠ []) : ¬ mark <+: v ++ (mark ++ y) := by
  intro hpre
  refine hm.unbordered.not_infix_append hm.ne_nil hx ?_
  rw [huv, List.append_assoc]
  exact List.infix_append_of_infix_right (prefix_append_dropLast hv hpre).isInfix

/-- No other mark starts in a mark. -/
theorem IsMark.not_infix_tail (hm : IsMark mark) (hx : ¬ mark <:+: x) :
    ¬ mark <:+: mark.tail ++ x := by
  intro hin
  rcases List.infix_append_iff_ne_nil.1 hin with htail | hx' | ⟨l, r, hl, -, hlr, hsuf, -⟩
  · have := htail.length_le
    have := List.length_pos_iff.2 hm.ne_nil
    simp only [List.length_tail] at *
    omega
  · exact hx hx'
  · have hl' : l = mark := by
      refine hm.unbordered l ((List.mem_inits _ _).2 ?_) hl (hsuf.trans (List.tail_suffix mark))
      exact hlr ▸ List.prefix_append l r
    have := hsuf.length_le
    have := List.length_pos_iff.2 hm.ne_nil
    simp only [hl', List.length_tail] at *
    omega

/-- The first brace of sections opens the body of the first section that has one. -/
theorem afterBrace?_sectionsText (hm : IsMark mark) (ss : List Section) :
    Landmarks.afterBrace? (sectionsText mark ss) =
      ((ss.map Section.shape).findIdx? (·.2)).map (bodyOn mark ss) := by
  induction ss with
  | nil => rfl
  | cons s ss ih =>
    rw [sectionsText_cons, Landmarks.afterBrace?_append hm.no_brace, List.map_cons,
      List.findIdx?_cons]
    cases hb : s.body with
    | none =>
      rw [Section.text_of_none hb, Landmarks.afterBrace?_append s.closed, ih]
      simp only [Section.shape, hb, Option.isSome_none, Bool.false_eq_true, if_false,
        Option.map_map]
      rfl
    | some b =>
      rw [Section.text_of_some hb, List.append_assoc, Landmarks.afterBrace?_append s.closed,
        List.cons_append, Landmarks.afterBrace?_brace]
      simp [Section.shape, hb, bodyOn]

/-- Without bodies nothing is placed. -/
theorem place_eq_none {shapes : List (Text × Bool)} (h : shapes.findIdx? (·.2) = none) :
    place label shapes = none := by
  induction shapes with
  | nil => rfl
  | cons s ss ih =>
    rw [place]
    split
    · exact h
    · rw [List.findIdx?_cons] at h
      split at h
      · exact absurd h (by simp)
      · rw [ih (Option.map_eq_none_iff.1 h), Option.map_none]

/-- A label is read from the head of a section only. -/
theorem IsLabel.prefix_iff (hl : IsLabel mark label) :
    label <+: s.text ++ sectionsText mark ss ↔ label <+: s.head := by
  cases hb : s.body with
  | none =>
    rw [Section.text_of_none hb]
    cases ss with
    | nil => rw [sectionsText_nil, List.append_nil]
    | cons s' ss => rw [sectionsText_cons, prefix_append_iff_of_apart hl.apart]
  | some b =>
    have happart : Apart label [brace] := apart_singleton hl.ne_nil hl.no_brace
    rw [Section.text_of_some hb, List.append_assoc, List.cons_append]
    exact prefix_append_iff_of_apart (c := [brace]) happart

/-- Behind a label that does not meet its brace at once, there is no brace. -/
private theorem ne_brace_cons (hm : IsMark mark) {g : Text} (hg : label ++ g = s.head)
    (hshape : s.shape ≠ (label, true)) {rest : Text}
    (hrest : label ++ rest = s.text ++ sectionsText mark ss) : ∀ y, rest ≠ brace :: y := by
  rintro y rfl
  have hclosed := s.closed
  rw [Section.text, ← hg, List.append_assoc, List.append_assoc, List.append_cancel_left_eq]
    at hrest
  -- what follows the label is the rest of the head, the brace of the body or the next mark
  cases g with
  | cons c g =>
    obtain ⟨rfl, -⟩ := List.cons_eq_cons.1 hrest
    exact hclosed (hg ▸ List.mem_append_right label List.mem_cons_self)
  | nil =>
    rw [List.append_nil] at hg
    cases hb : s.body with
    | some b => exact hshape (by simp [Section.shape, hb, hg])
    | none =>
      cases ss with
      | nil => simp [hb] at hrest
      | cons s' ss =>
        obtain ⟨m, mark', rfl⟩ := List.exists_cons_of_ne_nil hm.ne_nil
        simp only [hb, List.nil_append, sectionsText_cons, List.cons_append] at hrest
        obtain ⟨rfl, -⟩ := List.cons_eq_cons.1 hrest
        exact hm.no_brace List.mem_cons_self

/-- What a signature at the first of some sections opens, if there is one. -/
private theorem enterText?_sections (hm : IsMark mark) (hl : IsLabel mark label) :
    (if startsWith (s.text ++ sectionsText mark ss) label then
        Landmarks.enterText? ((s.text ++ sectionsText mark ss).drop label.length)
      else none) =
      if label <+: s.shape.1 ∧ s.shape ≠ (label, true) then
        (((s :: ss).map Section.shape).findIdx? (·.2)).map (bodyOn mark (s :: ss))
      else none := by
  by_cases hpre : label <+: s.head
  · obtain ⟨rest, hrest⟩ : label <+: s.text ++ sectionsText mark ss := hl.prefix_iff.2 hpre
    obtain ⟨g, hg⟩ := hpre
    rw [← hrest, if_pos (startsWith_iff.2 (List.prefix_append label rest)), List.drop_left]
    by_cases hshape : s.shape = (label, true)
    · obtain ⟨hhead, hbody⟩ := Prod.mk.injEq .. ▸ hshape
      obtain ⟨b, hb⟩ := Option.isSome_iff_exists.1 hbody
      rw [Section.text_of_some hb, hhead, List.append_assoc, List.append_cancel_left_eq] at hrest
      rw [if_neg (fun h => h.2 hshape), hrest, List.cons_append, Landmarks.enterText?_brace]
    · rw [if_pos ⟨⟨g, hg⟩, hshape⟩, Landmarks.enterText?_eq (ne_brace_cons hm hg hshape hrest),
        ← afterBrace?_sectionsText hm, sectionsText_cons, Landmarks.afterBrace?_append hm.no_brace,
        ← hrest, Landmarks.afterBrace?_append hl.no_brace]
  · -- the label would have to run out of the head, over a brace or a mark
    have hno : ¬ label <+: s.text ++ sectionsText mark ss := by rwa [hl.prefix_iff]
    rw [if_neg (by rwa [startsWith_iff]), if_neg (fun h => hpre h.1)]

/-- The search for a signature goes through the sections: it opens the body where the label is
placed. -/
theorem bodyText?_sections (hm : IsMark mark) (hl : IsLabel mark label)
    (hx : ¬ mark <:+: x) (hss : ∀ s ∈ ss, ¬ mark <:+: s.text) :
    Landmarks.bodyText? (mark ++ label) (x ++ sectionsText mark ss) =
      (place label (ss.map Section.shape)).map (bodyOn mark ss) := by
  induction ss generalizing x with
  | nil =>
    rw [sectionsText_nil, List.append_nil]
    refine Landmarks.bodyText?_eq_none fun hin => hx ?_
    exact (List.prefix_append mark label).isInfix.trans hin
  | cons s ss ih =>
    have hs := hss s List.mem_cons_self
    have hss' : ∀ s ∈ ss, ¬ mark <:+: s.text := fun s' h => hss s' (List.mem_cons_of_mem s h)
    -- the text before the mark is passed over, and so is the mark if no signature starts with it
    have hskip : ∀ u v, x = u ++ v → v ≠ [] →
        ¬ mark ++ label <+: v ++ (mark ++ (s.text ++ sectionsText mark ss)) :=
      fun u v huv hv hpre =>
        hm.not_prefix_append hx huv hv ((List.prefix_append mark label).trans hpre)
    have hstart : startsWith (mark ++ (s.text ++ sectionsText mark ss)) (mark ++ label) =
        startsWith (s.text ++ sectionsText mark ss) label := by
      rw [Bool.eq_iff_iff, startsWith_iff, startsWith_iff, List.prefix_append_right_inj]
    have hdrop : (mark ++ (s.text ++ sectionsText mark ss)).drop (mark ++ label).length =
        (s.text ++ sectionsText mark ss).drop label.length := by
      rw [List.length_append, ← List.drop_drop, List.drop_left]
    rw [sectionsText_cons, Landmarks.bodyText?_append hskip,
      Landmarks.bodyText?_eq_or (by simp [hm.ne_nil]), hstart, hdrop, enterText?_sections hm hl,
      List.tail_append_of_ne_nil hm.ne_nil, ← List.append_assoc,
      ih (hm.not_infix_tail hs) hss', List.map_cons, place]
    by_cases hc : label <+: s.shape.1 ∧ s.shape ≠ (label, true)
    · -- the signature opens the first body from here on; without one, no later signature does
      rw [if_pos hc, if_pos hc]
      cases hfind : (s.shape :: ss.map Section.shape).findIdx? (·.2) with
      | some j => rfl
      | none =>
        have htail : (ss.map Section.shape).findIdx? (·.2) = none := by
          rw [List.findIdx?_cons] at hfind
          split at hfind
          · exact absurd hfind (by simp)
          · exact Option.map_eq_none_iff.1 hfind
        rw [place_eq_none htail]
        rfl
    · rw [if_neg hc, if_neg hc, Option.none_or, Option.map_map]
      rfl

private theorem exists_of_findIdx? {j : Nat}
    (h : (ss.map Section.shape).findIdx? (·.2) = some j) :
    ∃ xs s b ys, ss = xs ++ s :: ys ∧ xs.length = j ∧ s.body = some b := by
  induction ss generalizing j with
  | nil => exact absurd h (by simp)
  | cons s ss ih =>
    rw [List.map_cons, List.findIdx?_cons] at h
    split at h
    · rename_i hbody
      obtain ⟨b, hb⟩ := Option.isSome_iff_exists.1 hbody
      obtain rfl := Option.some_inj.1 h
      exact ⟨[], s, b, ss, rfl, rfl, hb⟩
    · obtain ⟨i, hi, rfl⟩ := Option.map_eq_some_iff.1 h
      obtain ⟨xs, s', b, ys, rfl, rfl, hb⟩ := ih hi
      exact ⟨s :: xs, s', b, ys, rfl, rfl, hb⟩

/-- A label is placed at a section with a body. -/
theorem exists_of_place {j : Nat} (h : place label (ss.map Section.shape) = some j) :
    ∃ xs s b ys, ss = xs ++ s :: ys ∧ xs.length = j ∧ s.body = some b := by
  induction ss generalizing j with
  | nil => exact absurd h (by simp [place])
  | cons s ss ih =>
    rw [List.map_cons, place] at h
    split at h
    · exact exists_of_findIdx? h
    · obtain ⟨i, hi, rfl⟩ := Option.map_eq_some_iff.1 h
      obtain ⟨xs, s', b, ys, rfl, rfl, hb⟩ := ih hi
      exact ⟨s :: xs, s', b, ys, rfl, rfl, hb⟩

end Sections

/-! ### Outlines -/

/-- A text as the part before the first mark and the sections after it. -/
structure Outline where
  preamble : Text
  sections : List Section

namespace Outline

variable {mark label : Text} {o : Outline}

/-- The text of an outline. -/
def text (mark : Text) (o : Outline) : Text := o.preamble ++ sectionsText mark o.sections

/-- The marks of the text are those before the sections, and no others. -/
structure Fits (mark : Text) (o : Outline) : Prop where
  preamble_free : ¬ mark <:+: o.preamble
  section_free : ∀ s ∈ o.sections, ¬ mark <:+: s.text

/-- Every text has an outline. -/
theorem exists_text_eq (hm : IsMark mark) (t : Text) :
    ∃ o : Outline, o.Fits mark ∧ o.text mark = t := by
  obtain ⟨q, qs, hqs⟩ := List.exists_cons_of_ne_nil (pieces_ne_nil t mark)
  have hfree : ∀ p ∈ q :: qs, ¬ mark <:+: p := by
    intro p hp
    exact not_infix_of_mem_pieces hm.ne_nil (hqs ▸ hp)
  refine ⟨⟨q, qs.map Section.ofText⟩, ⟨hfree q List.mem_cons_self, ?_⟩, ?_⟩
  · intro s hs
    obtain ⟨p, hp, rfl⟩ := List.mem_map.1 hs
    rw [Section.text_ofText]
    exact hfree p (List.mem_cons_of_mem q hp)
  · -- the text is its pieces joined by the mark; the first is the preamble
    rw [← join_pieces t mark, hqs, text]
    clear hqs hfree
    induction qs generalizing q with
    | nil => simp
    | cons p ps ih =>
      rw [join_cons mark q (by simp), List.map_cons, sectionsText_cons, Section.text_ofText, ← ih]

/-- The index of the section whose body a declaration opens. -/
def place? (label : Text) (o : Outline) : Option Nat := place label (o.sections.map Section.shape)

/-- The text up to the body of a section that comes after some others. -/
def upTo (mark : Text) (o : Outline) (xs : List Section) (s : Section) : Text :=
  o.preamble ++ (sectionsText mark xs ++ (mark ++ (s.head ++ [brace])))

theorem text_eq {xs ys : List Section} {s : Section} {b : Text}
    (h : o.sections = xs ++ s :: ys) (hb : s.body = some b) :
    o.text mark = o.upTo mark xs s ++ (b ++ sectionsText mark ys) := by
  rw [text, h, sectionsText_append, sectionsText_cons, Section.text_of_some hb]
  simp [upTo]

/-- The span of the body of the section with an index. -/
def span (mark : Text) (o : Outline) (j : Nat) : Span :=
  match o.sections.drop j with
  | [] => ⟨(o.text mark).length, (o.text mark).length⟩
  | s :: _ =>
    let start := (o.upTo mark (o.sections.take j) s).length
    ⟨start, (start + (s.body.getD []).length : Nat)⟩

theorem span_eq {xs ys : List Section} {s : Section} {b : Text}
    (h : o.sections = xs ++ s :: ys) (hb : s.body = some b) :
    o.span mark xs.length =
      ⟨(o.upTo mark xs s).length, ((o.upTo mark xs s).length + b.length : Nat)⟩ := by
  rw [span, h, List.drop_left, List.take_left]
  simp [hb]

/-- The next unit after the body of a section is the next section. -/
private theorem spanFrom_eq {l : Landmarks} (hm : IsMark l.nextUnit) (x : Text) (ys : List Section)
    {b : Text} (hb : ¬ l.nextUnit <:+: b) :
    l.spanFrom x.length (x ++ (b ++ sectionsText l.nextUnit ys)) =
      ⟨x.length, (x.length + b.length : Nat)⟩ := by
  rw [Landmarks.spanFrom, if_neg (by simpa using hm.ne_nil), List.drop_left, indexOf?]
  cases ys with
  | nil =>
    rw [sectionsText_nil, List.append_nil, cut?_eq_none_iff.2 hb]
    simp
  | cons s ys =>
    rw [sectionsText_cons, hm.unbordered.cut?_append hm.ne_nil hb]
    rfl

/-- The body of a section has no mark. -/
theorem Fits.body_free (hm : IsMark mark) (ho : o.Fits mark) {s : Section} (hs : s ∈ o.sections)
    {b : Text} (hb : s.body = some b) : ¬ mark <:+: b := by
  have hfree := ho.section_free s hs
  rw [Section.infix_text_iff hm.ne_nil hm.no_brace] at hfree
  exact fun hin => hfree (.inr ⟨b, hb, hin⟩)

end Outline

/-! ### Locating units in outlines -/

/-- Landmarks that find a unit of a given name section by section. -/
structure Landmarks.Readable (l : Landmarks) (name : Text) : Prop where
  same : l.declaration = l.nextUnit
  label : IsLabel l.nextUnit (name ++ "(")
  named : name ≠ []
  ascii : IsAscii (l.nextUnit ++ name)

/-- The span of a unit is the body of the section where its label is placed. -/
theorem Outline.locate_text {l : Landmarks} {name : Text} (hm : IsMark l.nextUnit)
    (h : l.Readable name) {o : Outline} (ho : o.Fits l.nextUnit) :
    l.locate name (o.text l.nextUnit) =
      match o.place? (name ++ "(") with
      | none => .error (.unitMissing name)
      | some j => .ok (o.span l.nextUnit j) := by
  have hascii : IsAscii (l.declaration ++ name) := h.same ▸ h.ascii
  have hfind : Landmarks.bodyText? (l.declaration ++ (name ++ "(")) (o.text l.nextUnit) =
      (o.place? (name ++ "(")).map (bodyOn l.nextUnit o.sections) := by
    rw [h.same, Outline.text, bodyText?_sections hm h.label ho.preamble_free ho.section_free]
    rfl
  rw [Landmarks.locate_eq h.named hascii, hfind]
  cases hplace : o.place? (name ++ "(") with
  | none => rfl
  | some j =>
    obtain ⟨xs, s, b, ys, hss, rfl, hb⟩ := exists_of_place hplace
    -- the body ends at the next mark, because it has none itself
    have hfree := ho.body_free hm (s := s) (by simp [hss]) hb
    have hbody : bodyOn l.nextUnit o.sections xs.length = b ++ sectionsText l.nextUnit ys := by
      rw [bodyOn, hss, List.drop_left]
      simp [hb]
    have hspan := Outline.spanFrom_eq hm (o.upTo l.nextUnit xs s) ys hfree
    simp only [Option.map_some, hbody]
    rw [Outline.span_eq hss hb, Outline.text_eq hss hb, ← hspan]
    simp

end Reroute
