import Mathlib.Data.List.Basic
import Reroute.Proofs.Patch

/-!
# Diffs are true patches

The hunks of a comparison lead from the left lines to the right ones: each stands at the positions
that it names, the lines between two hunks are the same on both sides, and its own lines are those
of either side at its place. Cutting the context short, ending a hunk inside long common lines and
leaving out hunks without a change only move common lines out of the hunks. Hunks that lead from one
list to another are a patch that makes the other out of the one.

## Main definitions

* `Diff.Leads` — hunks that lead from lines to other lines

## Main results

* `Diff.flatMap_left_segments`, `Diff.flatMap_right_segments` — nothing is lost in a comparison
* `Diff.leads_hunks` — the hunks of a comparison lead from its left to its right side
* `Diff.Leads.run` — hunks that lead to lines, when applied, give these lines
* `Diff.patched?_compare` — the hunks of two texts make the lines of the second out of those of the
  first
* `Diff.unified_true_patch` — the diff of two texts as a patch
-/

namespace Reroute.Diff

/-! ### Compared lines -/

theorem exists_comparedLines_eq (t : Text) : ∃ front last, t = front.flatten ++ last ∧
    (∀ l ∈ front, Text.IsClosed l) ∧ Text.newline ∉ last ∧
      comparedLines t = front ++ [last ++ [Text.newline]] := by
  obtain ⟨front, last, hlines, hfront, hlast⟩ := Text.exists_lines_eq t
  have htext : t = front.flatten ++ last := by
    rw [← Text.flatten_lines t, hlines, List.flatten_append, List.flatten_singleton]
  refine ⟨front, last, htext, hfront, hlast, ?_⟩
  rw [comparedLines, hlines, List.reverse_append, List.reverse_singleton, List.singleton_append]
  exact congrArg (· ++ _) (List.reverse_reverse front)

theorem isClosed_of_mem_comparedLines (t : Text) : ∀ l ∈ comparedLines t, Text.IsClosed l := by
  obtain ⟨front, last, -, hfront, hlast, hcompared⟩ := exists_comparedLines_eq t
  rw [hcompared]
  exact List.forall_mem_append.2
    ⟨hfront, List.forall_mem_singleton.2 (Text.isClosed_append_newline hlast)⟩

theorem flatten_comparedLines (t : Text) : (comparedLines t).flatten = t ++ [Text.newline] := by
  obtain ⟨front, last, htext, -, -, hcompared⟩ := exists_comparedLines_eq t
  rw [hcompared, List.flatten_append, List.flatten_singleton, ← List.append_assoc, ← htext]

/-- The added newline keeps texts with and without a newline at their end apart. -/
theorem comparedLines_injective : Function.Injective comparedLines := by
  intro t u h
  have hflat := congrArg List.flatten h
  rw [flatten_comparedLines, flatten_comparedLines] at hflat
  exact List.append_cancel_right hflat

/-! ### Segments -/

/-- A list is what stands before a block, the block and what stands behind it. -/
theorem take_append_block (ls : List Text) (start size : Nat) :
    ls.take start ++ ((ls.drop start).take size ++ ls.drop (start + size)) = ls := by
  rw [← List.drop_drop, List.take_append_drop, List.take_append_drop]

theorem flatMap_left_segments (frequent : Text → Bool) (as bs : List Text) :
    (segments frequent as bs).flatMap Segment.left = as := by
  fun_induction segments frequent as bs with
  | case1 as bs b hsize before after =>
    rw [List.flatMap_append, List.flatMap_cons, before, after]
    exact take_append_block as b.left b.size
  | case2 as bs b hsize hempty =>
    obtain ⟨has, -⟩ : as = [] ∧ bs = [] := by simpa using hempty
    rw [has, List.flatMap_nil]
  | case3 as bs b hsize hempty => exact List.append_nil as

theorem flatMap_right_segments (frequent : Text → Bool) (as bs : List Text) :
    (segments frequent as bs).flatMap Segment.right = bs := by
  fun_induction segments frequent as bs with
  | case1 as bs b hsize before after =>
    rw [List.flatMap_append, List.flatMap_cons, before, after]
    -- the common lines were taken from the left list, but the block stands in both
    have hcommon : Segment.right (.common ((as.drop b.left).take b.size)) =
        (bs.drop b.right).take b.size := (matches_longestBlock frequent as bs).lines_eq
    rw [hcommon]
    exact take_append_block bs b.right b.size
  | case2 as bs b hsize hempty =>
    obtain ⟨-, hbs⟩ : as = [] ∧ bs = [] := by simpa using hempty
    rw [hbs, List.flatMap_nil]
  | case3 as bs b hsize hempty => exact List.append_nil bs

/-! ### Hunks that lead from lines to other lines -/

/-- A hunk without a change has the same lines on both sides. -/
theorem Hunk.leftLines_eq_rightLines {h : Hunk} (hsame : h.hasChange = false) :
    h.leftLines = h.rightLines := by
  have hall : ∀ s ∈ h.segments, s.left = s.right := by
    intro s hs
    have hno := List.any_eq_false.1 hsame s hs
    cases s with
    | common ls => rfl
    | change removed added => exact absurd rfl hno
  rw [leftLines, rightLines, List.flatMap_def, List.flatMap_def, List.map_congr_left hall]

/-- Hunks in order that lead from lines to other lines, with `i` lines before the first ones and `j`
before the second ones. -/
inductive Leads : Nat → Nat → List Hunk → List Text → List Text → Prop
  /-- Without a hunk the lines are the same. -/
  | done (i j : Nat) (ls : List Text) : Leads i j [] ls ls
  /-- The lines up to a hunk are the same, and it stands where it says. -/
  | hunk {i j : Nat} {h : Hunk} {hs : List Hunk} {as bs : List Text} (gap : List Text)
      (left_eq : h.left = i + gap.length) (right_eq : h.right = j + gap.length)
      (rest : Leads (h.left + h.leftLines.length) (h.right + h.rightLines.length) hs as bs) :
      Leads i j (h :: hs) (gap ++ h.leftLines ++ as) (gap ++ h.rightLines ++ bs)

namespace Leads

variable {i j : Nat} {hs : List Hunk} {as bs : List Text}

/-- Common lines before the hunks. -/
theorem prepend {ls : List Text} (h : Leads (i + ls.length) (j + ls.length) hs as bs) :
    Leads i j hs (ls ++ as) (ls ++ bs) := by
  cases h with
  | done => exact done i j (ls ++ as)
  | hunk gap left_eq right_eq rest =>
    -- they join the lines before the first hunk
    have hjoined := hunk (i := i) (j := j) (ls ++ gap)
      (by rw [left_eq, List.length_append, Nat.add_assoc])
      (by rw [right_eq, List.length_append, Nat.add_assoc]) rest
    simpa only [List.append_assoc] using hjoined

/-- Common lines behind the hunks. -/
theorem append (h : Leads i j hs as bs) (ls : List Text) :
    Leads i j hs (as ++ ls) (bs ++ ls) := by
  induction h with
  | done i j front => exact done i j (front ++ ls)
  | hunk gap left_eq right_eq rest ih =>
    rw [List.append_assoc, List.append_assoc _ _ ls]
    exact hunk gap left_eq right_eq ih

/-- Hunks without a change can be left out. -/
theorem filter (h : Leads i j hs as bs) : Leads i j (hs.filter Hunk.hasChange) as bs := by
  induction h with
  | done i j ls => exact done i j ls
  | @hunk i j h hs as bs gap left_eq right_eq rest ih =>
    cases hchange : h.hasChange with
    | true =>
      rw [List.filter_cons_of_pos hchange]
      exact hunk gap left_eq right_eq ih
    | false =>
      -- its lines become common lines before the next hunk
      have hlines := Hunk.leftLines_eq_rightLines hchange
      rw [List.filter_cons_of_neg (by simp [hchange]), hlines]
      refine prepend ?_
      rw [List.length_append, ← Nat.add_assoc, ← Nat.add_assoc, ← left_eq, ← right_eq]
      rwa [hlines] at ih

/-- Between closed lines all lines of the hunks are closed. -/
theorem isClosed (h : Leads i j hs as bs) (has : ∀ l ∈ as, Text.IsClosed l)
    (hbs : ∀ l ∈ bs, Text.IsClosed l) : ∀ l ∈ hs.flatMap Hunk.marked, Text.IsClosed l := by
  induction h with
  | done => exact List.forall_mem_nil _
  | @hunk i j h hs as bs gap left_eq right_eq rest ih =>
    simp only [List.forall_mem_append] at has hbs
    obtain ⟨⟨-, hleft⟩, has⟩ := has
    obtain ⟨⟨-, hright⟩, hbs⟩ := hbs
    rw [List.flatMap_cons, Hunk.marked]
    refine List.forall_mem_append.2 ⟨List.forall_mem_cons.2 ⟨h.isClosed_header, ?_⟩, ih has hbs⟩
    intro l hl
    obtain ⟨s, hs, hl⟩ := List.mem_flatMap.1 hl
    exact Segment.isClosed_of_mem_marked
      (fun l hl => hleft l (List.mem_flatMap.2 ⟨s, hs, hl⟩))
      (fun l hl => hright l (List.mem_flatMap.2 ⟨s, hs, hl⟩)) l hl

/-- Hunks that lead to lines, when applied, give these lines. -/
theorem run (h : Leads i j hs as bs) (new : List Text) (hnew : new.length = j) :
    (Progress.run ⟨as, i, new, 0, 0⟩ (hs.flatMap Hunk.marked) >>= Progress.result?) =
      some (new ++ bs) := by
  induction h generalizing new with
  | done i j ls => simp [Progress.run, Progress.result?]
  | @hunk i j h hs as bs gap left_eq right_eq rest ih =>
    -- the position in the second list is the number of lines that were written
    rw [← hnew] at right_eq
    rw [List.flatMap_cons, Progress.run_append, Progress.run_hunk left_eq right_eq]
    have hlength : (new ++ gap ++ h.rightLines).length = h.right + h.rightLines.length := by
      rw [List.length_append, List.length_append, right_eq]
    have hrest := ih (new ++ gap ++ h.rightLines) hlength
    simpa only [List.append_assoc, Option.bind_eq_bind, Option.bind_some] using hrest

end Leads

/-! ### Gathering hunks -/

theorem Hunk.leftLines_append (h : Hunk) (s : Segment) :
    Hunk.leftLines { h with segments := h.segments ++ [s] } = h.leftLines ++ s.left := by
  simp [leftLines]

theorem Hunk.rightLines_append (h : Hunk) (s : Segment) :
    Hunk.rightLines { h with segments := h.segments ++ [s] } = h.rightLines ++ s.right := by
  simp [rightLines]

/-- Long common lines are the context of two hunks and the lines between them. -/
theorem exists_between {n : Nat} {ls : List Text} (h : 2 * n ≤ ls.length) :
    ∃ between, ls.take n ++ (between ++ lastLines n ls) = ls ∧ (ls.take n).length = n ∧
      between.length = ls.length - 2 * n := by
  have hlast : lastLines n ls = (ls.drop n).drop (ls.length - 2 * n) := by
    rw [lastLines, List.drop_drop]
    congr 1
    omega
  refine ⟨(ls.drop n).take (ls.length - 2 * n), ?_, ?_, ?_⟩
  · rw [hlast, List.take_append_drop, List.take_append_drop]
  · rw [List.length_take]
    omega
  · rw [List.length_take, List.length_drop]
    omega

/-- A hunk ends with the first lines of long common lines, and the hunks behind it start with the
last ones. -/
theorem Leads.end_hunk {h : Hunk} {hs : List Hunk} {i j : Nat} {ls as bs : List Text}
    (gap : List Text) (hleft : h.left = i + gap.length) (hright : h.right = j + gap.length)
    (hlong : 2 * context ≤ ls.length)
    (rest : Leads (h.left + h.leftLines.length + (ls.length - context))
      (h.right + h.rightLines.length + (ls.length - context)) hs
      (lastLines context ls ++ as) (lastLines context ls ++ bs)) :
    Leads i j ({ h with segments := h.segments ++ [.common (ls.take context)] } :: hs)
      (gap ++ h.leftLines ++ (ls ++ as)) (gap ++ h.rightLines ++ (ls ++ bs)) := by
  obtain ⟨between, hsplit, htake, hbetween⟩ := exists_between hlong
  let ended : Hunk := { h with segments := h.segments ++ [.common (ls.take context)] }
  have hleftLines : ended.leftLines = h.leftLines ++ ls.take context := h.leftLines_append _
  have hrightLines : ended.rightLines = h.rightLines ++ ls.take context := h.rightLines_append _
  have hskipped (before front : Nat) : before + (front + context) + between.length =
      before + front + (ls.length - context) := by omega
  -- the lines between the two hunks are common lines before the next one
  have hrest : Leads (ended.left + ended.leftLines.length) (ended.right + ended.rightLines.length)
      hs (between ++ (lastLines context ls ++ as)) (between ++ (lastLines context ls ++ bs)) := by
    refine prepend ?_
    rwa [hleftLines, hrightLines, List.length_append, List.length_append, htake, hskipped, hskipped]
  have hlines (front back : List Text) : gap ++ (front ++ ls.take context) ++
      (between ++ (lastLines context ls ++ back)) = gap ++ front ++ (ls ++ back) := by
    nth_rewrite 3 [← hsplit]
    simp only [List.append_assoc]
  have hwhole := hunk (h := ended) gap hleft hright hrest
  rwa [hleftLines, hrightLines, hlines, hlines] at hwhole

/-- Gathering goes on with an open hunk that ends where the segments start. -/
theorem leads_gather (ss : List Segment) (h : Hunk) {i j : Nat} (gap : List Text)
    (hleft : h.left = i + gap.length) (hright : h.right = j + gap.length) :
    Leads i j (gather h (h.left + h.leftLines.length) (h.right + h.rightLines.length) ss)
      (gap ++ h.leftLines ++ ss.flatMap Segment.left)
      (gap ++ h.rightLines ++ ss.flatMap Segment.right) := by
  induction ss generalizing h i j gap with
  | nil => exact .hunk gap hleft hright (.done _ _ [])
  | cons s ss ih =>
    -- a segment that stays in the open hunk
    have hjoin := ih { h with segments := h.segments ++ [s] } gap hleft hright
    rw [Hunk.leftLines_append, Hunk.rightLines_append] at hjoin
    simp only [List.length_append, ← Nat.add_assoc, List.append_assoc] at hjoin
    rw [List.flatMap_cons, List.flatMap_cons]
    cases s with
    | change removed added =>
      rw [List.append_assoc, List.append_assoc]
      exact hjoin
    | common ls =>
      rw [gather]
      split
      case isFalse =>
        rw [List.append_assoc, List.append_assoc]
        exact hjoin
      case isTrue hlong =>
        refine Leads.end_hunk gap hleft hright (Nat.le_of_lt hlong) ?_
        -- the next hunk opens at its own place, so nothing stands before it
        have hnext := ih ⟨h.left + h.leftLines.length + (ls.length - context),
          h.right + h.rightLines.length + (ls.length - context),
          [.common (lastLines context ls)]⟩ [] (Nat.add_zero _).symm (Nat.add_zero _).symm
        have hend (before : Nat) : before + (ls.length - context) + (lastLines context ls).length =
            before + ls.length := by
          rw [lastLines, List.length_drop]
          omega
        simpa only [Hunk.leftLines, Hunk.rightLines, List.flatMap_singleton, Segment.left,
          Segment.right, List.nil_append, hend] using hnext

/-- Only common lines are cut off at the end. -/
theorem exists_trimEnd (ss : List Segment) : ∃ ls : List Text,
    ss.flatMap Segment.left = (trimEnd ss).flatMap Segment.left ++ ls ∧
      ss.flatMap Segment.right = (trimEnd ss).flatMap Segment.right ++ ls := by
  fun_induction trimEnd ss with
  | case1 => exact ⟨[], rfl, rfl⟩
  | case2 ls =>
    refine ⟨ls.drop context, ?_, ?_⟩ <;>
      simp [Segment.left, Segment.right]
  | case3 s rest _ ih =>
    obtain ⟨ls, hleft, hright⟩ := ih
    refine ⟨ls, ?_, ?_⟩
    · rw [List.flatMap_cons, List.flatMap_cons, hleft, List.append_assoc]
    · rw [List.flatMap_cons, List.flatMap_cons, hright, List.append_assoc]

/-- The hunks of a comparison lead from its left to its right side. -/
theorem leads_hunks (ss : List Segment) :
    Leads 0 0 (hunks ss) (ss.flatMap Segment.left) (ss.flatMap Segment.right) := by
  obtain ⟨tail, hleft, hright⟩ := exists_trimEnd ss
  rw [hleft, hright, hunks]
  refine Leads.append ?_ tail
  split
  case h_1 ls rest heq =>
    -- common lines before the context of the first change stay outside the first hunk
    have hskipped : (ls.take (ls.length - context)).length = ls.length - context :=
      List.length_take_of_le (Nat.sub_le _ _)
    have hgathered := leads_gather (.common (lastLines context ls) :: rest)
      ⟨ls.length - context, ls.length - context, []⟩ (i := 0) (j := 0)
      (ls.take (ls.length - context)) (by rw [hskipped, Nat.zero_add])
      (by rw [hskipped, Nat.zero_add])
    have hlines : ls.take (ls.length - context) ++ lastLines context ls = ls :=
      List.take_append_drop _ ls
    have hleads := hgathered.filter
    simp only [List.flatMap_cons, Segment.left, Segment.right, Hunk.leftLines, Hunk.rightLines,
      List.flatMap_nil, List.append_nil, ← List.append_assoc, hlines] at hleads
    rw [heq, List.flatMap_cons, List.flatMap_cons]
    exact hleads
  case h_2 =>
    exact (leads_gather (trimEnd ss) ⟨0, 0, []⟩ [] rfl rfl).filter

/-! ### Diffs of texts -/

/-- The two lines before the hunks of a diff. -/
def header (path : Text) : Text := "--- a/" ++ path ++ "\n+++ b/" ++ path ++ "\n"

theorem leads_compare (before after : Text) :
    Leads 0 0 (hunks (compare before after)) (comparedLines before) (comparedLines after) := by
  have hleads := leads_hunks (compare before after)
  rwa [compare, flatMap_left_segments, flatMap_right_segments] at hleads

/-- Applied to the lines of the first text, the hunks of a diff give the lines of the second. -/
theorem patched?_compare (before after : Text) :
    patched? (comparedLines before) ((hunks (compare before after)).flatMap Hunk.render) =
      some (comparedLines after) := by
  have hleads := leads_compare before after
  have hclosed := hleads.isClosed (isClosed_of_mem_comparedLines before)
    (isClosed_of_mem_comparedLines after)
  rw [patched?, ← Text.flatten_flatMap_of_forall Hunk.flatten_marked,
    Text.filter_lines_flatten hclosed, hleads.run [] rfl, List.nil_append]

/-- The diff of two texts is empty if they are the same. Otherwise its two header lines are followed
by hunks, and these, applied at their places to the lines of the first text, give exactly the lines
of the second. -/
theorem unified_true_patch (path before after : Text) :
    (unified path before after = [] ↔ before = after) ∧
      (before ≠ after → ∃ body, unified path before after = header path ++ body ∧ body ≠ [] ∧
        patched? (comparedLines before) body = some (comparedLines after)) := by
  have hdiffer : before ≠ after → unified path before after =
      header path ++ (hunks (compare before after)).flatMap Hunk.render := fun h => if_neg h
  have hpatched := patched?_compare before after
  refine ⟨⟨fun hempty => ?_, fun h => if_pos h⟩, fun h => ⟨_, hdiffer h, ?_, hpatched⟩⟩
  · by_contra h
    rw [hdiffer h] at hempty
    cases hempty
  · -- without a hunk the lines would stay as they are
    intro hnone
    rw [hnone] at hpatched
    exact h (comparedLines_injective (Option.some.inj hpatched))

/-- A newline at the end is a change of the lines. -/
theorem unified_true_patch_final_newline : Text.ofString "a" ≠ Text.ofString "a\n" ∧
    ∃ body, unified "f" "a" "a\n" = header "f" ++ body ∧ body ≠ [] ∧
      patched? (comparedLines "a") body = some (comparedLines "a\n") :=
  ⟨by decide, (unified_true_patch "f" "a" "a\n").2 (by decide)⟩

end Reroute.Diff
