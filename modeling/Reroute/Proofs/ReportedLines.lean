import Mathlib.Data.List.Forall2
import Reroute.Proofs.Scanning

/-!
# The lines of a report

The lines of rerouted calls are counted right after the turn of their route. Later turns may change
the text before a call and behind it, but they take out and put in only targets and openings, which
have no newline and never share a byte with an opening that is there. So each opening stays on its
line, and the lines that a pass reports are right in the text that it leaves.

## Main definitions

* `Text.OnLine` — a text stands on a line of another one
* `Profile.KeepsLines` — targets and openings that keep apart and have no newline
* `Profile.LinesIn` — the outcome of a route tells the lines of its openings in a text

## Main results

* `Text.OnLine.join` — other separators leave a text on its line
* `Profile.linesIn_patchUnit`, `Profile.linesIn_patchUnits` — the turn of a route, and all turns
* `Profile.standard_lines_of_apply` — the lines that a pass reports are right in its output
-/

namespace Reroute

open Text

namespace Text

variable {t w c d x y z : Text} {l : Nat}

/-! ### Texts on lines -/

/-- The text `w` stands in `t`, and it starts on the line with a number. -/
def OnLine (w t : Text) (l : Nat) : Prop := ∃ x y, t = x ++ (w ++ y) ∧ lineOf t x.length = l

theorem lineOf_append_length (x y : Text) : lineOf (x ++ y) x.length = x.count newline + 1 := by
  rw [lineOf, List.take_left]

theorem onLine_append (x w y : Text) : OnLine w (x ++ (w ++ y)) (x.count newline + 1) :=
  ⟨x, y, rfl, lineOf_append_length x _⟩

theorem OnLine.append_right (h : OnLine w t l) (z : Text) : OnLine w (t ++ z) l := by
  obtain ⟨x, y, rfl, rfl⟩ := h
  refine ⟨x, y ++ z, by simp, ?_⟩
  rw [List.append_assoc, lineOf_append_length, lineOf_append_length]

theorem OnLine.append_left (h : OnLine w t l) (z : Text) :
    OnLine w (z ++ t) (z.count newline + l) := by
  obtain ⟨x, y, rfl, rfl⟩ := h
  refine ⟨z ++ x, y, by simp, ?_⟩
  rw [lineOf_append_length, ← List.append_assoc, lineOf_append_length, List.count_append]
  omega

/-- Around a text from which it keeps apart, a text stands on one side or the other. -/
theorem OnLine.cases_of_apart (hw : Apart w c) (h : OnLine w (x ++ (c ++ y)) l) :
    OnLine w x l ∨ ∃ m, OnLine w y m ∧ l = x.count newline + (c.count newline + m) := by
  obtain ⟨u, v, heq, rfl⟩ := h
  rw [heq, lineOf_append_length]
  rcases List.append_eq_append_iff.1 heq with ⟨a, rfl, ha⟩ | ⟨a, rfl, ha⟩
  · -- it starts behind `x`, and so behind `c`
    rcases List.append_eq_append_iff.1 ha with ⟨b, rfl, rfl⟩ | ⟨b, rfl, hb⟩
    · refine .inr ⟨_, onLine_append b w v, ?_⟩
      simp only [List.count_append]
      omega
    · by_cases hnil : b = []
      · subst hnil
        rw [List.nil_append] at hb
        refine .inr ⟨_, hb ▸ onLine_append [] w v, ?_⟩
        simp only [List.count_append, List.append_nil, List.count_nil]
        omega
      · rcases List.prefix_or_prefix_of_prefix ⟨y, hb.symm⟩ (List.prefix_append w v) with hbw | hwb
        · exact absurd (.intro hnil (List.suffix_append a b) hbw) hw.not_meets'
        · exact absurd (hwb.isInfix.trans (List.suffix_append a b).isInfix) hw.not_within
  · -- it starts in `x`, and so it ends there
    obtain ⟨b, rfl⟩ := (prefix_append_iff_of_apart hw).1 ⟨v, ha⟩
    exact .inl (onLine_append u w b)

/-- Pieces may be joined by another text without a newline: what keeps apart from the first
separator stays on its line. -/
theorem OnLine.join (hw : Apart w c) (hc : newline ∉ c) (hd : newline ∉ d) {ps : List Text}
    (hps : ps ≠ []) (h : OnLine w (x ++ (Text.join c ps ++ z)) l) :
    OnLine w (x ++ (Text.join d ps ++ z)) l := by
  induction ps generalizing x l with
  | nil => exact absurd rfl hps
  | cons p ps ih =>
    by_cases hnil : ps = []
    · subst hnil
      simpa using h
    · rw [join_cons _ p hnil] at h ⊢
      simp only [List.append_assoc] at h ⊢
      rw [← List.append_assoc x p] at h ⊢
      -- it stands before the first separator or behind it
      rcases h.cases_of_apart hw with hfront | ⟨m, hback, rfl⟩
      · exact hfront.append_right _
      · have hback' := ih (x := []) hnil (by simpa using hback)
        rw [List.count_eq_zero.2 hc, ← List.count_eq_zero.2 hd]
        exact (hback'.append_left d).append_left (x ++ p)

/-! ### The lines of a text -/

theorem exists_fields_eq_cons (sep : UInt8) (t : Text) : ∃ p ps, fields sep t = p :: ps := by
  cases t with
  | nil => exact ⟨[], [], rfl⟩
  | cons b rest =>
    rw [fields]
    split
    · exact ⟨_, _, rfl⟩
    · split
      · exact ⟨_, _, rfl⟩
      · exact ⟨_, _, rfl⟩

theorem fields_cons_of_ne {sep b : UInt8} {p : Text} {ps : List Text} (hb : b ≠ sep)
    (h : fields sep t = p :: ps) : fields sep (b :: t) = (b :: p) :: ps := by
  rw [fields, if_neg hb, h]

theorem fields_append_of_not_mem {sep : UInt8} {p : Text} {ps : List Text} (hw : sep ∉ w)
    (h : fields sep t = p :: ps) : fields sep (w ++ t) = (w ++ p) :: ps := by
  induction w with
  | nil => exact h
  | cons b w ih =>
    rw [List.mem_cons, not_or] at hw
    exact fields_cons_of_ne (Ne.symm hw.1) (ih hw.2)

/-- A text without a newline that stands on a line is a part of that line. -/
theorem OnLine.exists_line (hw : newline ∉ w) (h : OnLine w t l) :
    ∃ n line, l = n + 1 ∧ (fields newline t)[n]? = some line ∧ w <:+: line := by
  obtain ⟨x, y, rfl, rfl⟩ := h
  rw [lineOf_append_length]
  suffices hline : ∃ line, (fields newline (x ++ (w ++ y)))[x.count newline]? = some line ∧
      w <:+: line by
    obtain ⟨line, hget, hin⟩ := hline
    exact ⟨_, line, rfl, hget, hin⟩
  induction x with
  | nil =>
    obtain ⟨p, ps, hps⟩ := exists_fields_eq_cons newline y
    rw [List.nil_append, fields_append_of_not_mem hw hps]
    exact ⟨w ++ p, rfl, (List.prefix_append w p).isInfix⟩
  | cons b x ih =>
    obtain ⟨line, hget, hin⟩ := ih
    rw [List.cons_append]
    by_cases hb : b = newline
    · -- a new line starts behind `b`
      rw [hb, List.count_cons_self, fields, if_pos rfl, List.getElem?_cons_succ]
      exact ⟨line, hget, hin⟩
    · obtain ⟨p, ps, hps⟩ := exists_fields_eq_cons newline (x ++ (w ++ y))
      rw [List.count_cons_of_ne hb, fields_cons_of_ne hb hps]
      rw [hps] at hget
      cases hn : x.count newline with
      | zero =>
        rw [hn, List.getElem?_cons_zero] at hget
        obtain rfl : p = line := Option.some.inj hget
        exact ⟨b :: p, rfl, hin.trans (List.suffix_cons b p).isInfix⟩
      | succ n =>
        rw [hn, List.getElem?_cons_succ] at hget
        exact ⟨line, hget, hin⟩

end Text

/-! ### Turns -/

namespace Profile

variable {p : Profile} {r : Route} {rs : List Route} {t out final w : Text} {u : UnitOutcome}
  {us : List UnitOutcome}

/-- Targets and openings have no newline, and they never share a byte. -/
structure KeepsLines (p : Profile) : Prop where
  target_ne_nil : p.target ≠ []
  target_apart : ∀ r ∈ p.routes, Apart p.target (p.callRule.opening r)
  target_line : newline ∉ p.target
  opening_line : ∀ r ∈ p.routes, newline ∉ p.callRule.opening r

/-- The outcome of a route tells on which lines of a text the openings of the route stand. -/
structure LinesIn (p : Profile) (final : Text) (r : Route) (u : UnitOutcome) : Prop where
  name : u.name = r.name
  lines_ne_nil_iff : u.lines ≠ [] ↔ u.status = .rerouted
  ascending : u.lines.Pairwise (· ≤ ·)
  onLine : ∀ l ∈ u.lines, ∃ n : Nat, l = n ∧ OnLine (p.callRule.opening r) final n

/-- Lines go up with the offsets. -/
theorem lineOf_le_lineOf {i j : Nat} (h : i ≤ j) : lineOf t i ≤ lineOf t j := by
  rw [lineOf, lineOf]
  have := (List.take_sublist_take_left (l := t) h).count_le newline
  omega

/-- A rule that goes through tells the lines of the openings that it writes, from the top down. -/
theorem lines_of_apply {c : CallRule} {span : Span} {sites : List Nat} (hc : c.target ≠ [])
    (h : c.apply t span r = .ok (out, sites)) :
    (sites.map (lineOf out)).Pairwise (· ≤ ·) ∧
      ∀ site ∈ sites, OnLine (c.opening r) out (lineOf out site) := by
  have hfit := CallRule.fits_of_apply h
  obtain ⟨-, rfl, rfl⟩ := (CallRule.apply_eq_ok_iff hfit hc).1 h
  have hstart : span.start.toNat = (span.before t).length := by
    obtain ⟨-, hle, hstop⟩ := hfit
    rw [Span.before, List.length_take]
    omega
  constructor
  · refine List.pairwise_map.2 ?_
    refine (CallRule.pairwise_siteOffsets (CallRule.opening_ne_nil c r) _ _).imp ?_
    exact fun hlt => lineOf_le_lineOf (Nat.le_of_lt hlt)
  · intro site hsite
    -- the opening at an offset, with the text before it
    obtain ⟨x, y, hjoin, rfl⟩ := CallRule.exists_of_mem_siteOffsets hsite
    refine ⟨span.before t ++ x, y ++ span.after t, ?_, ?_⟩
    · simp [CallRule.reroute, hjoin]
    · rw [hstart, List.length_append]

/-- What the turn of a route reports is right in the text that it leaves. -/
theorem linesIn_patchUnit (hc : p.target ≠ []) (h : p.patchUnit r t = .ok (out, u)) :
    p.LinesIn out r u := by
  rw [patchUnit] at h
  split at h
  · -- a unit that is not declared has no lines
    split at h
    · cases h
      exact ⟨rfl, by simp, .nil, fun l hl => by cases hl⟩
    · cases h
  · rename_i span _
    split at h
    · cases h
    rename_i sites happly
    cases h
    obtain ⟨hascending, honLine⟩ := lines_of_apply hc happly
    refine ⟨rfl, ?_, ?_, fun l hl => ?_⟩
    · cases sites <;> simp [outcome]
    · rw [outcome, List.pairwise_map]
      rw [List.pairwise_map] at hascending
      exact hascending.imp fun hle => by exact_mod_cast hle
    · obtain ⟨site, hsite, rfl⟩ := List.mem_map.1 hl
      exact ⟨_, rfl, honLine site hsite⟩

/-- A turn leaves what keeps apart from the target on its line. -/
theorem onLine_patchUnit (hp : p.KeepsLines) (hr : r ∈ p.routes) (hw : Apart w p.target)
    (h : p.patchUnit r t = .ok (out, u)) {n : Nat} (hline : OnLine w t n) : OnLine w out n := by
  obtain ⟨-, ⟨rfl, -⟩ | ⟨before, body, after, rfl, rfl, -⟩⟩ := patchUnit_cases h
  · exact hline
  · rw [← join_pieces body p.target] at hline
    exact hline.join hw hp.target_line (hp.opening_line r hr) (pieces_ne_nil body p.target)

/-- So do the turns of routes one after the other. -/
theorem onLine_patchUnits (hp : p.KeepsLines) (hrs : ∀ r ∈ rs, r ∈ p.routes)
    (hw : Apart w p.target) (h : (p.patchUnits rs t).result = .ok (final, us)) {n : Nat}
    (hline : OnLine w t n) : OnLine w final n := by
  induction rs generalizing t us with
  | nil =>
    cases h
    exact hline
  | cons r rs ih =>
    obtain ⟨out, u, us', hturn, hrest, -⟩ := exists_of_patchUnits_cons h
    have hr := hrs r List.mem_cons_self
    exact ih (fun r' h => hrs r' (List.mem_cons_of_mem r h)) hrest
      (onLine_patchUnit hp hr hw hturn hline)

/-- The lines that the turns of routes report are right in the text that is left in the end. -/
theorem linesIn_patchUnits (hp : p.KeepsLines) (hrs : ∀ r ∈ rs, r ∈ p.routes)
    (h : (p.patchUnits rs t).result = .ok (final, us)) :
    List.Forall₂ (p.LinesIn final) rs us := by
  induction rs generalizing t us with
  | nil =>
    cases h
    exact .nil
  | cons r rs ih =>
    obtain ⟨out, u, us', hturn, hrest, rfl⟩ := exists_of_patchUnits_cons h
    have hrs' : ∀ r' ∈ rs, r' ∈ p.routes := fun r' h => hrs r' (List.mem_cons_of_mem r h)
    refine .cons ?_ (ih hrs' hrest)
    -- the lines are right after the turn, and the other turns leave the openings there
    obtain ⟨hname, hstatus, hascending, honLine⟩ := linesIn_patchUnit hp.target_ne_nil hturn
    refine ⟨hname, hstatus, hascending, fun l hl => ?_⟩
    obtain ⟨n, rfl, hline⟩ := honLine l hl
    have hapart := (hp.target_apart r (hrs r List.mem_cons_self)).symm
    exact ⟨n, rfl, onLine_patchUnits hp hrs' hapart hrest hline⟩

/-! ### Passes -/

theorem standard_keepsLines : standard.KeepsLines where
  target_ne_nil := standard_separated.target_ne_nil
  target_apart := standard_separated.target_apart
  target_line := by decide +kernel
  opening_line _ := newline_not_mem_standard_opening

/-- The lines in the report of a pass are right in the text that the pass leaves. Every route has an
outcome, with lines just if something was rerouted. They go down the text, and the opening of the
route stands on each of them. -/
theorem standard_lines_of_apply {t out : Text} {report : Report}
    (h : (standard.apply t).result = .ok (out, report)) :
    List.Forall₂ (fun r u => u.name = r.name ∧ (u.lines ≠ [] ↔ u.status = .rerouted) ∧
        u.lines.Pairwise (· ≤ ·) ∧
        ∀ l ∈ u.lines, ∃ n line, l = ((n + 1 : Nat) : Int) ∧
          (out.fields newline)[n]? = some line ∧ standard.callRule.opening r <:+: line)
      standard.routes report.units := by
  obtain ⟨start, -, hturns⟩ := exists_patchUnits_of_apply h
  have hlines := linesIn_patchUnits standard_keepsLines (fun _ hr => hr) hturns
  refine ((List.forall₂_and_left _ _).2 ⟨fun r hr => hr, hlines⟩).imp ?_
  rintro r u ⟨hr, hname, hstatus, hascending, honLine⟩
  refine ⟨hname, hstatus, hascending, fun l hl => ?_⟩
  obtain ⟨n, rfl, hline⟩ := honLine l hl
  obtain ⟨n, line, rfl, hget, hin⟩ := hline.exists_line (standard_keepsLines.opening_line r hr)
  exact ⟨n, line, rfl, hget, hin⟩

/-- The second of two units is rerouted first, and then the text before it is changed. Its calls
share a line with each other and stay there. -/
theorem standard_lines_of_apply_backwards :
    let t : Text := "use std::sync::Arc;fn success_log\nasync fn write_file(x) \x7b\n" ++
      "CallToolResult::success(1)\n\x7dasync fn read_file(x) \x7b\n" ++
      "CallToolResult::success(2)CallToolResult::success(3)\n\x7d"
    ∃ out report, (standard.apply t).result = .ok (out, report) ∧
      (report.units.map UnitOutcome.lines).take 4 = [[], [], [5, 5], [3]] ∧
      ∃ r line, standard.routes[2]? = some r ∧ (out.fields newline)[4]? = some line ∧
        standard.callRule.opening r <:+: line := by
  intro t
  have hresult : (standard.apply t).result.toOption.map (fun done =>
      (done.2.units.map UnitOutcome.lines).take 4) = some [[], [], [5, 5], [3]] := by
    decide +kernel
  obtain ⟨out, report, happly, hlines⟩ := exists_of_apply_map hresult
  have hthird : (report.units.map UnitOutcome.lines)[2]? = some [5, 5] := by
    have := congrArg (·[2]?) hlines
    simpa using this
  rw [List.getElem?_map, Option.map_eq_some_iff] at hthird
  obtain ⟨u, hu, hlines'⟩ := hthird
  obtain ⟨hi, rfl⟩ := List.getElem?_eq_some_iff.1 hu
  obtain ⟨-, -, -, hin⟩ :=
    (List.forall₂_iff_get.1 (standard_lines_of_apply happly)).2 2 (by decide) hi
  obtain ⟨n, line, hn, hline, hopening⟩ := hin 5 (by simp [hlines'])
  obtain rfl : n = 4 := by omega
  exact ⟨out, report, happly, hlines, _, line, rfl, hline, hopening⟩

end Profile

end Reroute
