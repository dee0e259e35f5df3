import Reroute.Diff.Block

/-!
# Matching lines

Two lists of lines are matched around their longest common block, and then again on either side of
it. That the block stands in both lists is not looked up again: a block with lines in it always
does, so what is left on either side is shorter.

## Main definitions

* `Diff.Segment` — lines that both lists share, or lines that one replaces by others
* `Diff.segments` — the segments of two lists
-/

namespace Reroute.Diff

/-- A part of the comparison of two lists. -/
inductive Segment where
  /-- Lines of both lists. -/
  | common (ls : List Text)
  /-- Lines of the left list, and the lines of the right list that stand for them. -/
  | change (removed added : List Text)
deriving DecidableEq, Repr

theorem length_take_longestBlock_lt {frequent : Text → Bool} {as bs : List Text}
    (h : 0 < (longestBlock frequent as bs).size) :
    (as.take (longestBlock frequent as bs).left).length < as.length := by
  have hbound := (matches_longestBlock frequent as bs).left_add_size_le
  rw [List.length_take]
  omega

theorem length_drop_longestBlock_lt {frequent : Text → Bool} {as bs : List Text}
    (h : 0 < (longestBlock frequent as bs).size) :
    (as.drop ((longestBlock frequent as bs).left + (longestBlock frequent as bs).size)).length <
      as.length := by
  have hbound := (matches_longestBlock frequent as bs).left_add_size_le
  rw [List.length_drop]
  omega

/-- The segments of two lists, around their longest common blocks. -/
def segments (frequent : Text → Bool) (as bs : List Text) : List Segment :=
  let b := longestBlock frequent as bs
  if _h : 0 < b.size then
    segments frequent (as.take b.left) (bs.take b.right) ++
      .common ((as.drop b.left).take b.size) ::
        segments frequent (as.drop (b.left + b.size)) (bs.drop (b.right + b.size))
  else if as.isEmpty && bs.isEmpty then []
  else [.change as bs]
termination_by as.length
decreasing_by
  · exact length_take_longestBlock_lt _h
  · exact length_drop_longestBlock_lt _h

end Reroute.Diff
