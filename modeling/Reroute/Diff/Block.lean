import Reroute.Text.Basic
import Std.Data.HashMap

/-!
# The longest common block

Two lists of lines are compared by the longest block of lines that stands in both. Among the longest
blocks the one that starts first in the left list wins, then the one that starts first in the right
list. In a long right list, lines that are very frequent do not start a block, but a block may grow
over them.

The left lines are gone through once. For each of them an index gives its positions on the right,
and a table the lengths of the common runs that end one line before. So every length in the table,
and every block that is kept, is that of lines which really stand in both lists.

## Main definitions

* `Diff.Block`, `Diff.Block.Matches` — stretches of two lists, and those with the same lines
* `Diff.longestRun` — the longest common run of lines that may start a block
* `Diff.longestBlock` — the longest common block

## Main results

* `Diff.matches_longestRun` — the longest run stands in both lists
* `Diff.matches_longestBlock` — the longest block stands in both lists
-/

namespace Reroute.Diff

/-- A stretch of lines in each of two lists. -/
structure Block where
  left : Nat
  right : Nat
  size : Nat
deriving DecidableEq, Repr

/-- How often each line occurs. -/
def occurrences (ls : List Text) : Std.HashMap Text Nat :=
  ls.foldl (fun counts l => counts.insert l (counts.getD l 0 + 1)) ∅

/-- Whether a line is too frequent in the right list to start a block: among at least two hundred
lines, those that make up more than a hundredth, and one more, of them. -/
def isFrequent (counts : Std.HashMap Text Nat) (total : Nat) (l : Text) : Bool :=
  200 ≤ total && total / 100 + 1 < counts.getD l 0

/-- The positions of each line that may start a block, in ascending order. -/
def positions (frequent : Text → Bool) (ls : List Text) : Std.HashMap Text (List Nat) :=
  ls.zipIdx.reverse.foldl (fun index (l, j) =>
    if frequent l then index else index.insert l (j :: index.getD l [])) ∅

/-- One left line against its positions on the right: the lengths of the common runs that end
there, from the lengths of the runs that end one line before, and the longest run so far. -/
def extendRuns (i : Nat) (lengths : Std.HashMap Nat Nat) (best : Block) (js : List Nat) :
    Std.HashMap Nat Nat × Block :=
  js.foldl (fun (next, best) j =>
    let k := (if j = 0 then 0 else lengths.getD (j - 1) 0) + 1
    (next.insert j k, if best.size < k then ⟨i + 1 - k, j + 1 - k, k⟩ else best)) (∅, best)

/-- The longest common run of lines that may start a block. -/
def longestRun (frequent : Text → Bool) (as bs : List Text) : Block :=
  let index := positions frequent bs
  (as.zipIdx.foldl (fun (lengths, best) (l, i) => extendRuns i lengths best (index.getD l []))
    ((∅ : Std.HashMap Nat Nat), (⟨0, 0, 0⟩ : Block))).2

/-- The number of lines that two lists have in common from their start on. -/
def commonLength : List Text → List Text → Nat
  | a :: as, b :: bs => if a = b then commonLength as bs + 1 else 0
  | _, _ => 0

/-- A block grown over common lines at both ends. -/
def Block.grow (b : Block) (as bs : List Text) : Block :=
  let back := commonLength (as.take b.left).reverse (bs.take b.right).reverse
  let forth := commonLength (as.drop (b.left + b.size)) (bs.drop (b.right + b.size))
  ⟨b.left - back, b.right - back, b.size + back + forth⟩

/-- The longest common block. -/
def longestBlock (frequent : Text → Bool) (as bs : List Text) : Block :=
  (longestRun frequent as bs).grow as bs

/-! ### Blocks that stand in both lists -/

/-- The block holds the same lines in both lists. -/
def Block.Matches (b : Block) (as bs : List Text) : Prop :=
  ∃ front common back front' back', as = front ++ (common ++ back) ∧
    bs = front' ++ (common ++ back') ∧ front.length = b.left ∧ front'.length = b.right ∧
      common.length = b.size

namespace Block.Matches

variable {b : Block} {as bs : List Text}

theorem of_size_zero (as bs : List Text) : Block.Matches ⟨0, 0, 0⟩ as bs :=
  ⟨[], [], as, [], bs, rfl, rfl, rfl, rfl, rfl⟩

/-- The lines of the block in either list. -/
theorem lines_eq (h : b.Matches as bs) :
    (as.drop b.left).take b.size = (bs.drop b.right).take b.size := by
  obtain ⟨front, common, back, front', back', rfl, rfl, hleft, hright, hsize⟩ := h
  rw [← hleft, ← hright, ← hsize, List.drop_left, List.drop_left, List.take_left, List.take_left]

theorem left_add_size_le (h : b.Matches as bs) : b.left + b.size ≤ as.length := by
  obtain ⟨front, common, back, front', back', rfl, rfl, hleft, hright, hsize⟩ := h
  rw [← hleft, ← hsize, List.length_append, List.length_append, ← Nat.add_assoc]
  exact Nat.le_add_right _ _

end Block.Matches

/-- What two lists have in common from their start on. -/
theorem exists_common (as bs : List Text) : ∃ common rest rest', as = common ++ rest ∧
    bs = common ++ rest' ∧ common.length = commonLength as bs := by
  fun_induction commonLength as bs with
  | case1 as b bs ih =>
    obtain ⟨common, rest, rest', has, hbs, hlength⟩ := ih
    exact ⟨b :: common, rest, rest', by rw [has, List.cons_append], by rw [hbs, List.cons_append],
      by rw [List.length_cons, hlength]⟩
  | case2 a as b bs hne => exact ⟨[], a :: as, b :: bs, rfl, rfl, rfl⟩
  | case3 as bs => exact ⟨[], as, bs, rfl, rfl, rfl⟩

/-- A block that stands in both lists still does so when it has grown. -/
theorem Block.Matches.grow {b : Block} {as bs : List Text} (h : b.Matches as bs) :
    (b.grow as bs).Matches as bs := by
  obtain ⟨front, common, back, front', back', rfl, rfl, hleft, hright, hsize⟩ := h
  -- the lists end before the block as their reversals start, and go on behind it
  obtain ⟨before, rest, rest', hfront, hfront', hbefore⟩ :=
    exists_common front.reverse front'.reverse
  obtain ⟨behind, back, back', rfl, rfl, hbehind⟩ := exists_common back back'
  rw [List.reverse_eq_iff, List.reverse_append] at hfront hfront'
  have hgrown : b.grow (front ++ (common ++ (behind ++ back)))
      (front' ++ (common ++ (behind ++ back'))) =
        ⟨b.left - before.length, b.right - before.length,
          b.size + before.length + behind.length⟩ := by
    rw [Block.grow, ← hleft, ← hright, ← hsize, List.take_left, List.take_left,
      ← List.drop_drop, ← List.drop_drop, List.drop_left, List.drop_left, List.drop_left,
      List.drop_left, ← hbefore, ← hbehind]
  rw [hgrown]
  refine ⟨rest.reverse, before.reverse ++ (common ++ behind), back, rest'.reverse, back', ?_, ?_,
    ?_, ?_, ?_⟩
  · simp only [hfront, List.append_assoc]
  · simp only [hfront', List.append_assoc]
  · simp only [← hleft, hfront, List.length_append, List.length_reverse, Nat.add_sub_cancel]
  · simp only [← hright, hfront', List.length_append, List.length_reverse, Nat.add_sub_cancel]
  · simp only [← hsize, List.length_append, List.length_reverse]
    omega

/-! ### Runs that stand in both lists -/

/-- The positions of a line are positions of it. -/
theorem getElem?_of_mem_positions {frequent : Text → Bool} {bs : List Text} {l : Text} {j : Nat}
    (h : j ∈ (positions frequent bs).getD l []) : bs[j]? = some l := by
  have hindex : ∀ (entries : List (Text × Nat)) (index : Std.HashMap Text (List Nat)),
      (∀ l j, j ∈ index.getD l [] → bs[j]? = some l) → (∀ e ∈ entries, bs[e.2]? = some e.1) →
      ∀ l j, j ∈ (entries.foldl (fun index (l, j) =>
        if frequent l then index else index.insert l (j :: index.getD l [])) index).getD l [] →
          bs[j]? = some l := by
    intro entries
    induction entries with
    | nil => exact fun index hindex _ => hindex
    | cons e entries ih =>
      intro index hindex hentries
      obtain ⟨hfirst, hrest⟩ := List.forall_mem_cons.1 hentries
      refine ih _ (fun l j hj => ?_) hrest
      simp only at hj
      split at hj
      · exact hindex l j hj
      · rw [Std.HashMap.getD_insert] at hj
        split at hj
        · rename_i heq
          rcases List.mem_cons.1 hj with rfl | hj
          · rw [hfirst, eq_of_beq heq]
          · rw [← eq_of_beq heq]
            exact hindex _ j hj
        · exact hindex l j hj
  refine hindex _ ∅ (fun l j hj => ?_) (fun e he => ?_) l j h
  · rw [Std.HashMap.getD_empty] at hj
    cases hj
  · exact List.mem_zipIdx_iff_getElem?.1 (List.mem_reverse.1 he)

/-- The last `k` of the first `i` lines on the left are the last of the first `j` on the right. -/
def CommonRun (as bs : List Text) (i j k : Nat) : Prop :=
  ∃ front common front', as.take i = front ++ common ∧ bs.take j = front' ++ common ∧
    common.length = k

namespace CommonRun

variable {as bs : List Text} {i j k : Nat} {l : Text}

theorem zero (as bs : List Text) (i j : Nat) : CommonRun as bs i j 0 :=
  ⟨as.take i, [], bs.take j, (List.append_nil _).symm, (List.append_nil _).symm, rfl⟩

/-- A run goes on with a line that stands in both lists. -/
theorem extend (h : CommonRun as bs i j k) (hi : as[i]? = some l) (hj : bs[j]? = some l) :
    CommonRun as bs (i + 1) (j + 1) (k + 1) := by
  obtain ⟨front, common, front', has, hbs, hlength⟩ := h
  refine ⟨front, common ++ [l], front', ?_, ?_, ?_⟩
  · rw [List.take_add_one, hi, has, Option.toList_some, List.append_assoc]
  · rw [List.take_add_one, hj, hbs, Option.toList_some, List.append_assoc]
  · rw [List.length_append, hlength, List.length_singleton]

/-- A run is a block that stands in both lists. -/
theorem block_matches (h : CommonRun as bs i j k) (hi : i ≤ as.length) (hj : j ≤ bs.length) :
    Block.Matches ⟨i - k, j - k, k⟩ as bs := by
  obtain ⟨front, common, front', has, hbs, rfl⟩ := h
  have hleft := congrArg List.length has
  have hright := congrArg List.length hbs
  rw [List.length_take_of_le hi, List.length_append] at hleft
  rw [List.length_take_of_le hj, List.length_append] at hright
  refine ⟨front, common, as.drop i, front', bs.drop j, ?_, ?_, ?_, ?_, rfl⟩
  · rw [← List.append_assoc, ← has, List.take_append_drop]
  · rw [← List.append_assoc, ← hbs, List.take_append_drop]
  · rw [hleft, Nat.add_sub_cancel]
  · rw [hright, Nat.add_sub_cancel]

end CommonRun

/-- The lengths of the common runs that end with the `i` first left lines, by the position of their
last line on the right. -/
def AreRuns (as bs : List Text) (i : Nat) (lengths : Std.HashMap Nat Nat) : Prop :=
  ∀ j, CommonRun as bs i (j + 1) (lengths.getD j 0)

/-- One more left line: its runs, and the longest one so far. -/
theorem runs_extendRuns {as bs : List Text} {i : Nat} {l : Text} {lengths : Std.HashMap Nat Nat}
    {best : Block} {js : List Nat} (hi : as[i]? = some l) (hjs : ∀ j ∈ js, bs[j]? = some l)
    (hlengths : AreRuns as bs i lengths) (hbest : best.Matches as bs) :
    AreRuns as bs (i + 1) (extendRuns i lengths best js).1 ∧
      (extendRuns i lengths best js).2.Matches as bs := by
  have hstart : AreRuns as bs (i + 1) ∅ := by
    intro j
    rw [Std.HashMap.getD_empty]
    exact .zero as bs (i + 1) (j + 1)
  rw [extendRuns]
  generalize (∅ : Std.HashMap Nat Nat) = next at hstart
  induction js generalizing next best with
  | nil => exact ⟨hstart, hbest⟩
  | cons j js ih =>
    obtain ⟨hj, hrest⟩ := List.forall_mem_cons.1 hjs
    -- the run that ends one line before in both lists goes on
    have hrun : CommonRun as bs (i + 1) (j + 1)
        ((if j = 0 then 0 else lengths.getD (j - 1) 0) + 1) := by
      refine .extend ?_ hi hj
      split
      · exact .zero as bs i j
      · have hbefore := hlengths (j - 1)
        rwa [Nat.sub_add_cancel (by omega)] at hbefore
    have hblock := hrun.block_matches (List.getElem?_eq_some_iff.1 hi).1
      (List.getElem?_eq_some_iff.1 hj).1
    rw [List.foldl_cons]
    generalize (if j = 0 then 0 else lengths.getD (j - 1) 0) + 1 = k at hrun hblock
    refine ih hrest ?_ _ fun j' => ?_
    · split
      · exact hblock
      · exact hbest
    · rw [Std.HashMap.getD_insert]
      split
      · rename_i heq
        rw [← eq_of_beq heq]
        exact hrun
      · exact hstart j'

/-- The longest run stands in both lists. -/
theorem matches_longestRun (frequent : Text → Bool) (as bs : List Text) :
    (longestRun frequent as bs).Matches as bs := by
  -- the invariant is about the lines that were gone through, those before the others
  have hfold : ∀ (rest front : List Text) (lengths : Std.HashMap Nat Nat) (best : Block),
      as = front ++ rest → AreRuns as bs front.length lengths → best.Matches as bs →
      ((rest.zipIdx front.length).foldl (fun (lengths, best) (l, i) =>
        extendRuns i lengths best ((positions frequent bs).getD l [])) (lengths, best)).2.Matches
          as bs := by
    intro rest
    induction rest with
    | nil => exact fun _ _ _ _ _ hbest => hbest
    | cons l rest ih =>
      intro front lengths best has hlengths hbest
      have hl : as[front.length]? = some l := by simp [has]
      have hjs : ∀ j ∈ (positions frequent bs).getD l [], bs[j]? = some l := fun _ hj =>
        getElem?_of_mem_positions hj
      have hnext := runs_extendRuns hl hjs hlengths hbest
      have hlater := ih (front ++ [l])
      rw [List.length_append, List.length_singleton] at hlater
      rw [List.zipIdx_cons, List.foldl_cons]
      exact hlater _ _ (by rw [has, List.append_assoc, List.singleton_append]) hnext.1 hnext.2
  refine hfold as [] ∅ ⟨0, 0, 0⟩ rfl (fun j => ?_) (.of_size_zero as bs)
  rw [Std.HashMap.getD_empty]
  exact .zero as bs 0 (j + 1)

/-- The longest block stands in both lists. -/
theorem matches_longestBlock (frequent : Text → Bool) (as bs : List Text) :
    (longestBlock frequent as bs).Matches as bs :=
  (matches_longestRun frequent as bs).grow

end Reroute.Diff
