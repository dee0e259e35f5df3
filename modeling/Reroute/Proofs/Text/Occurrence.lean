import Mathlib.Data.List.Infix
import Reroute.Text.Basic

/-!
# Occurrences of one text in another

The search functions of `Reroute.Text.Basic` in terms of infixes, and what happens to occurrences
when a text is taken apart at a pattern and put together again with another one. Two texts are
apart if no occurrence of the one can share a byte with an occurrence of the other. Such a text
occurs in a joined text only inside of a piece.

## Main definitions

* `Text.Meets` — the end of a text is the beginning of another
* `Text.Apart` — occurrences of two texts never share a byte
* `Text.Unbordered` — two occurrences of a text never overlap

## Main results

* `Text.cut?_eq_some_iff` — a cut is made at the first occurrence
* `Text.infix_join_iff` — a text apart from the separator occurs in a joined text only in a piece
* `Text.not_infix_of_mem_pieces` — no piece contains the pattern
-/

namespace Reroute

namespace Text

variable {t w c x y : Text}

/-! ### Search -/

theorem startsWith_iff : startsWith t w = true ↔ w <+: t := by
  rw [startsWith, List.isPrefixOf_iff_prefix]

theorem cut?_eq_none_iff : cut? t w = none ↔ ¬ w <:+: t := by
  induction t with
  | nil => by_cases hw : w = [] <;> simp [cut?, hw]
  | cons b rest ih =>
    rw [cut?, List.infix_cons_iff, not_or]
    split
    · rename_i hlead
      simp [startsWith_iff.1 hlead]
    · rename_i hlead
      rw [startsWith_iff] at hlead
      simp [ih, hlead]

/-- Whether a pattern is found is whether it is an infix. -/
theorem includes_iff : includes t w = true ↔ w <:+: t := by
  rw [includes, Option.isSome_iff_ne_none, Ne, cut?_eq_none_iff, not_not]

private theorem length_dropLast_lt (hw : w ≠ []) : w.dropLast.length < w.length := by
  have := List.length_pos_iff.2 hw
  rw [List.length_dropLast]
  omega

/-- An occurrence that starts before another one ends before the last byte of that one. -/
theorem prefix_append_dropLast {v : Text} (hv : v ≠ []) (h : w <+: v ++ (w ++ y)) :
    w <+: v ++ w.dropLast := by
  have hpos := List.length_pos_iff.2 hv
  refine List.prefix_of_prefix_length_le h ?_ ?_
  · rw [List.prefix_append_right_inj]
    exact (List.dropLast_prefix w).trans (List.prefix_append w y)
  · simp only [List.length_append, List.length_dropLast]
    omega

/-- Up to the last byte of the first occurrence there is no occurrence. -/
theorem not_infix_of_cut? (h : cut? t w = some (x, y)) (hw : w ≠ []) :
    ¬ w <:+: x ++ w.dropLast := by
  induction t generalizing x with
  | nil => simp [cut?, hw] at h
  | cons b rest ih =>
    rw [cut?] at h
    split at h
    · obtain ⟨rfl, -⟩ : [] = x ∧ _ := by simpa using h
      intro hin
      exact absurd hin.length_le (Nat.not_le.2 (length_dropLast_lt hw))
    · rename_i hlead
      obtain ⟨⟨x', y'⟩, hcut, hpair⟩ := Option.map_eq_some_iff.1 h
      obtain ⟨rfl, rfl⟩ : b :: x' = x ∧ y' = y := by simpa using hpair
      rw [List.cons_append, List.infix_cons_iff]
      rintro (hpre | hin)
      · -- an occurrence at the first byte would have been taken by the search
        apply hlead
        rw [startsWith_iff, eq_append_of_cut? hcut]
        refine hpre.trans ?_
        rw [← List.cons_append, ← List.cons_append, List.prefix_append_right_inj]
        exact (List.dropLast_prefix w).trans (List.prefix_append w _)
      · exact ih hcut hin

/-- Without an occurrence up to its last byte, an occurrence is not behind another one. -/
private theorem length_le_of_first {x' y' : Text}
    (h : x ++ (w ++ y) = x' ++ (w ++ y')) (hno : ¬ w <:+: x ++ w.dropLast) :
    x.length ≤ x'.length := by
  by_contra hlt
  have hother : x' ++ w <+: x ++ (w ++ y) := by
    rw [h, ← List.append_assoc]
    exact List.prefix_append _ _
  have hown : x ++ w.dropLast <+: x ++ (w ++ y) := by
    rw [List.prefix_append_right_inj]
    exact (List.dropLast_prefix w).trans (List.prefix_append w y)
  have hpre : x' ++ w <+: x ++ w.dropLast := by
    refine List.prefix_of_prefix_length_le hother hown ?_
    simp only [List.length_append, List.length_dropLast]
    omega
  exact hno ((List.suffix_append x' w).isInfix.trans hpre.isInfix)

/-- A cut is made at the first occurrence of the pattern. -/
theorem cut?_eq_some_iff (hw : w ≠ []) :
    cut? t w = some (x, y) ↔ t = x ++ (w ++ y) ∧ ¬ w <:+: x ++ w.dropLast := by
  constructor
  · intro h
    exact ⟨eq_append_of_cut? h, not_infix_of_cut? h hw⟩
  · rintro ⟨rfl, hfirst⟩
    cases hcut : cut? (x ++ (w ++ y)) w with
    | none => exact absurd (List.infix_append' x w y) (cut?_eq_none_iff.1 hcut)
    | some pair =>
      obtain ⟨x', y'⟩ := pair
      have heq := eq_append_of_cut? hcut
      have hfirst' := not_infix_of_cut? hcut hw
      have hlen : x.length = x'.length :=
        Nat.le_antisymm (length_le_of_first heq hfirst)
          (length_le_of_first heq.symm hfirst')
      obtain ⟨rfl, htail⟩ := List.append_inj heq hlen
      rw [List.append_cancel_left htail]

/-! ### Texts that keep apart -/

/-- Some end of `x` is a beginning of `y`. -/
def Meets (x y : Text) : Prop := ∃ o ∈ x.tails, o ≠ [] ∧ o <+: y

instance (x y : Text) : Decidable (Meets x y) :=
  inferInstanceAs (Decidable (∃ o ∈ x.tails, o ≠ [] ∧ o <+: y))

theorem Meets.intro {o : Text} (ho : o ≠ []) (hx : o <:+ x) (hy : o <+: y) : Meets x y :=
  ⟨o, (List.mem_tails o x).2 hx, ho, hy⟩

/-- No occurrence of `x` shares a byte with an occurrence of `y`. -/
structure Apart (x y : Text) : Prop where
  not_within : ¬ x <:+: y
  not_around : ¬ y <:+: x
  not_meets : ¬ Meets x y
  not_meets' : ¬ Meets y x

instance (x y : Text) : Decidable (Apart x y) :=
  decidable_of_iff (¬ x <:+: y ∧ ¬ y <:+: x ∧ ¬ Meets x y ∧ ¬ Meets y x)
    ⟨fun ⟨h₁, h₂, h₃, h₄⟩ => ⟨h₁, h₂, h₃, h₄⟩, fun ⟨h₁, h₂, h₃, h₄⟩ => ⟨h₁, h₂, h₃, h₄⟩⟩

theorem Apart.symm (h : Apart x y) : Apart y x :=
  ⟨h.not_around, h.not_within, h.not_meets', h.not_meets⟩

/-- A text is apart from a byte that it does not contain. -/
theorem apart_singleton {b : UInt8} (hw : w ≠ []) (hb : b ∉ w) : Apart w [b] where
  not_within h := by
    obtain ⟨a, rest, rfl⟩ := List.exists_cons_of_ne_nil hw
    have ha : a ∈ [b] := h.mem List.mem_cons_self
    exact hb (by simp [List.mem_singleton.1 ha])
  not_around h := hb (h.mem List.mem_cons_self)
  not_meets := by
    rintro ⟨o, ho, hne, hpre⟩
    obtain ⟨a, rest, rfl⟩ := List.exists_cons_of_ne_nil hne
    have ha : a ∈ [b] := hpre.mem List.mem_cons_self
    have hmem : a ∈ w := ((List.mem_tails _ _).1 ho).mem List.mem_cons_self
    exact hb (List.mem_singleton.1 ha ▸ hmem)
  not_meets' := by
    rintro ⟨o, ho, hne, hpre⟩
    obtain ⟨a, rest, rfl⟩ := List.exists_cons_of_ne_nil hne
    have ha : a ∈ [b] := ((List.mem_tails _ _).1 ho).mem List.mem_cons_self
    have hmem : a ∈ w := hpre.mem List.mem_cons_self
    exact hb (List.mem_singleton.1 ha ▸ hmem)

/-- A text between two bytes that another text does not have is apart from it, unless it is around
it. -/
theorem apart_of_enclosed {b : UInt8} {z : Text} (hw : w = b :: (z ++ [b])) (hb : b ∉ c)
    (hc : ¬ c <:+: w) : Apart w c where
  not_within h := hb (h.mem (by simp [hw]))
  not_around := hc
  not_meets := by
    rintro ⟨o, ho, hne, hpre⟩
    -- an end of the text has its last byte
    obtain ⟨o', b', rfl⟩ := (List.eq_nil_or_concat' o).resolve_left hne
    obtain ⟨u, hu⟩ := (List.mem_tails _ _).1 ho
    rw [hw, ← List.append_assoc, ← List.cons_append] at hu
    obtain rfl : b' = b := List.singleton_inj.1 (List.append_inj' hu rfl).2
    exact hb (hpre.mem (by simp))
  not_meets' := by
    rintro ⟨o, ho, hne, hpre⟩
    obtain ⟨a, rest, rfl⟩ := List.exists_cons_of_ne_nil hne
    obtain rfl : a = b := by
      rw [hw] at hpre
      exact (List.cons_prefix_cons.1 hpre).1
    exact hb (((List.mem_tails _ _).1 ho).mem List.mem_cons_self)

/-- Around an inserted text, a text that is apart from it occurs on one side or the other. -/
theorem infix_insert_iff (h : Apart w c) : w <:+: x ++ (c ++ y) ↔ w <:+: x ∨ w <:+: y := by
  constructor
  · intro hin
    rcases List.infix_append_iff_ne_nil.1 hin with hx | hcy | ⟨l, r, -, hr, rfl, -, hpre⟩
    · exact .inl hx
    · rcases List.infix_append_iff_ne_nil.1 hcy with hc | hy | ⟨l, r, hl, -, rfl, hsuf, -⟩
      · exact absurd hc h.not_within
      · exact .inr hy
      · exact absurd (.intro hl hsuf (List.prefix_append l r)) h.not_meets'
    · -- the part behind the seam ends inside of the insertion or covers it
      rcases List.prefix_or_prefix_of_prefix hpre (List.prefix_append c y) with hrc | hcr
      · exact absurd (.intro hr (List.suffix_append l r) hrc) h.not_meets
      · exact absurd (hcr.isInfix.trans (List.suffix_append l r).isInfix) h.not_around
  · rintro (hx | hy)
    · exact List.infix_append_of_infix_left hx
    · exact List.infix_append_of_infix_right (List.infix_append_of_infix_right hy)

/-- A text without a certain byte occurs on one side of it or the other. -/
theorem infix_append_cons_iff {b : UInt8} (hw : w ≠ []) (hb : b ∉ w) :
    w <:+: x ++ b :: y ↔ w <:+: x ∨ w <:+: y :=
  infix_insert_iff (c := [b]) (apart_singleton hw hb)

/-- A beginning that goes past `x` and is apart from what follows there does not exist. -/
theorem prefix_append_iff_of_apart (h : Apart w c) : w <+: x ++ (c ++ y) ↔ w <+: x := by
  constructor
  · intro hpre
    rcases List.prefix_or_prefix_of_prefix hpre (List.prefix_append x _) with hx | ⟨r, rfl⟩
    · exact hx
    · rw [List.prefix_append_right_inj] at hpre
      by_cases hr : r = []
      · simp [hr]
      · rcases List.prefix_or_prefix_of_prefix hpre (List.prefix_append c y) with hrc | hcr
        · exact absurd (.intro hr (List.suffix_append x r) hrc) h.not_meets
        · exact absurd (hcr.isInfix.trans (List.suffix_append x r).isInfix) h.not_around
  · exact fun hx => hx.trans (List.prefix_append x _)

/-! ### Joined texts -/

@[simp]
theorem join_singleton (c p : Text) : join c [p] = p := by
  simp [join]

theorem join_cons (c p : Text) {ps : List Text} (hps : ps ≠ []) :
    join c (p :: ps) = p ++ (c ++ join c ps) := by
  obtain ⟨q, qs, rfl⟩ := List.exists_cons_of_ne_nil hps
  rw [join, List.intercalate_cons_cons, List.append_assoc, join]

/-- A text that is apart from the separator occurs in a joined text only inside of a piece. -/
theorem infix_join_iff (h : Apart w c) {ps : List Text} (hps : ps ≠ []) :
    w <:+: join c ps ↔ ∃ p ∈ ps, w <:+: p := by
  induction ps with
  | nil => exact absurd rfl hps
  | cons p ps ih =>
    by_cases hnil : ps = []
    · simp [hnil]
    · rw [join_cons c p hnil, infix_insert_iff h, ih hnil]
      simp

theorem infix_join_of_mem {ps : List Text} {p : Text} (hp : p ∈ ps) : p <:+: join c ps := by
  induction ps with
  | nil => exact absurd hp List.not_mem_nil
  | cons q ps ih =>
    by_cases hnil : ps = []
    · simp_all
    · rw [join_cons c q hnil]
      rcases List.mem_cons.1 hp with rfl | hmem
      · exact List.infix_append_left
      · exact List.infix_append_of_infix_right (List.infix_append_of_infix_right (ih hmem))

/-! ### Pieces -/

theorem pieces_eq_singleton (h : ¬ w <:+: t) : pieces t w = [t] := by
  rw [pieces]
  split
  · rfl
  · split
    · rfl
    · rename_i hcut
      rw [cut?_eq_none_iff.2 h] at hcut
      exact absurd hcut (by simp)

theorem pieces_of_cut? (hw : w ≠ []) (h : cut? t w = some (x, y)) :
    pieces t w = x :: pieces y w := by
  rw [pieces, dif_neg hw]
  split
  · rename_i hcut
    rw [h] at hcut
    exact absurd hcut (by simp)
  · rename_i hcut
    rw [h] at hcut
    obtain ⟨rfl, rfl⟩ : x = _ ∧ y = _ := by simpa using hcut
    rfl

theorem join_pieces (t w : Text) : join w (pieces t w) = t := intercalate_pieces t w

/-- No piece contains the pattern. -/
theorem not_infix_of_mem_pieces (hw : w ≠ []) {p : Text} (hp : p ∈ pieces t w) : ¬ w <:+: p := by
  fun_induction pieces t w with
  | case1 => contradiction
  | case2 t _ hcut =>
    rw [List.mem_singleton.1 hp]
    exact cut?_eq_none_iff.1 hcut
  | case3 t _ before after hcut _ ih =>
    rcases List.mem_cons.1 hp with rfl | hmem
    · intro hin
      exact not_infix_of_cut? hcut hw (List.infix_append_of_infix_left hin)
    · exact ih hmem

/-- A text has one piece if and only if it does not contain the pattern. -/
theorem length_pieces_eq_one_iff (hw : w ≠ []) : (pieces t w).length = 1 ↔ ¬ w <:+: t := by
  constructor
  · intro h
    cases hcut : cut? t w with
    | none => exact cut?_eq_none_iff.1 hcut
    | some pair =>
      rw [pieces_of_cut? hw hcut, List.length_cons, Nat.add_eq_right] at h
      exact absurd (List.length_eq_zero_iff.1 h) (pieces_ne_nil pair.2 w)
  · intro h
    rw [pieces_eq_singleton h, List.length_singleton]

theorem one_lt_length_pieces (hw : w ≠ []) (h : w <:+: t) : 1 < (pieces t w).length := by
  have hpos := List.length_pos_iff.2 (pieces_ne_nil t w)
  have hone := mt (length_pieces_eq_one_iff hw).1 (not_not.2 h)
  omega

/-- Induction along the occurrences of a pattern, each found behind the one before it. -/
@[elab_as_elim]
theorem cut_induction {motive : Text → Prop} (hw : w ≠ [])
    (free : ∀ t, ¬ w <:+: t → motive t)
    (cut : ∀ t x y, cut? t w = some (x, y) → motive y → motive t) (t : Text) : motive t := by
  induction hn : t.length using Nat.strongRecOn generalizing t with
  | ind n ih =>
    cases hcut : cut? t w with
    | none => exact free t (cut?_eq_none_iff.1 hcut)
    | some pair =>
      have hshort : pair.2.length < n := hn ▸ length_lt_of_cut? hw hcut
      exact cut t pair.1 pair.2 hcut (ih pair.2.length hshort pair.2 rfl)

/-! ### Texts that do not overlap themselves -/

/-- No proper beginning of the text is also an end of it. -/
def Unbordered (w : Text) : Prop := ∀ x ∈ w.inits, x ≠ [] → x <:+ w → x = w

instance (w : Text) : Decidable (Unbordered w) :=
  inferInstanceAs (Decidable (∀ x ∈ w.inits, x ≠ [] → x <:+ w → x = w))

/-- In front of an unbordered text, no occurrence of it begins in a text that contains none. -/
theorem Unbordered.not_infix_append (h : Unbordered w) (hw : w ≠ []) (hx : ¬ w <:+: x) :
    ¬ w <:+: x ++ w.dropLast := by
  have hlen := length_dropLast_lt hw
  intro hin
  rcases List.infix_append_iff_ne_nil.1 hin with hleft | hright | ⟨l, r, -, hr, hlr, -, hpre⟩
  · exact hx hleft
  · exact absurd hright.length_le (by omega)
  · have hrw : r = w := by
      refine h r ((List.mem_inits _ _).2 (hpre.trans (List.dropLast_prefix w))) hr ?_
      rw [hlr]
      exact List.suffix_append l r
    have := hpre.length_le
    rw [hrw] at this
    omega

/-- The first occurrence of an unbordered text behind a text that contains none. -/
theorem Unbordered.cut?_append (h : Unbordered w) (hw : w ≠ []) (hx : ¬ w <:+: x) :
    cut? (x ++ (w ++ y)) w = some (x, y) :=
  (cut?_eq_some_iff hw).2 ⟨rfl, h.not_infix_append hw hx⟩

/-- An occurrence of an unbordered text that begins before another one ends before it. -/
theorem Unbordered.prefix_of_prefix_append {v : Text} (h : Unbordered w) (hv : v ≠ [])
    (hpre : w <+: v ++ (w ++ y)) : w <+: v := by
  rcases List.prefix_or_prefix_of_prefix hpre (List.prefix_append v _) with hwv | ⟨r, hr⟩
  · exact hwv
  · -- the part behind `v` begins the other occurrence and ends this one
    by_cases hnil : r = []
    · rw [← hr, hnil, List.append_nil]
    · have hpos := List.length_pos_iff.2 hv
      have hlength : v.length + r.length = w.length := by rw [← hr, List.length_append]
      have hbegins : r <+: w := by
        have hrest : r <+: w ++ y := by
          rw [← List.prefix_append_right_inj v, hr]
          exact hpre
        exact List.prefix_of_prefix_length_le hrest (List.prefix_append w y) (by omega)
      have hends : r <:+ w := ⟨v, hr⟩
      have hall := h r ((List.mem_inits _ _).2 hbegins) hnil hends
      rw [hall] at hlength
      omega

end Text

end Reroute
