import Reroute.Diff.Matching

/-!
# Unified diffs

The change from one text to another as hunks: the changed lines with two lines of context around
them, each hunk under its ranges in both texts. For the comparison a text is its lines, with a
newline added to the last one, so a text that ends in a newline has one empty line more.

## Main definitions

* `Diff.Hunk` — segments close to each other and where they start
* `Diff.hunks` — the hunks of a comparison
* `Diff.unified` — the unified diff of two texts
-/

namespace Reroute.Diff

/-- The lines of a text for a comparison. Each ends in a newline. -/
def comparedLines (t : Text) : List Text :=
  match t.lines.reverse with
  | [] => []
  | last :: rest => (rest.reverse) ++ [last ++ [Text.newline]]

/-- The lines around a change that are shown with it. -/
def context : Nat := 2

namespace Segment

/-- The lines of the left list. -/
def left : Segment → List Text
  | common ls => ls
  | change removed _ => removed

/-- The lines of the right list. -/
def right : Segment → List Text
  | common ls => ls
  | change _ added => added

/-- The lines of a segment with their marks. -/
def render : Segment → Text
  | common ls => ls.flatMap fun l => Text.byte ' ' :: l
  | change removed added =>
    (removed.flatMap fun l => Text.byte '-' :: l) ++ added.flatMap fun l => Text.byte '+' :: l

end Segment

/-- Segments close to each other, and the number of lines before them in either list. -/
structure Hunk where
  left : Nat
  right : Nat
  segments : List Segment
deriving DecidableEq, Repr

namespace Hunk

/-- The range of a hunk in one list. A hunk without lines there names the line before it. -/
def range (before size : Nat) : Text :=
  if size = 1 then Text.ofNat (before + 1)
  else if size = 0 then Text.ofNat before ++ "," ++ Text.ofNat size
  else Text.ofNat (before + 1) ++ "," ++ Text.ofNat size

/-- The ranges and the lines of a hunk. -/
def render (h : Hunk) : Text :=
  "@@ -" ++ range h.left (h.segments.flatMap Segment.left).length ++
    " +" ++ range h.right (h.segments.flatMap Segment.right).length ++ " @@\n" ++
    h.segments.flatMap Segment.render

/-- Whether a hunk shows a change. -/
def hasChange (h : Hunk) : Bool :=
  h.segments.any fun
    | .common _ => false
    | .change _ _ => true

end Hunk

/-- The last lines of a list. -/
def lastLines (n : Nat) (ls : List Text) : List Text := ls.drop (ls.length - n)

/-- Gathers segments into hunks. Common lines with more than the context of two changes end a hunk,
and the next one starts with the context before the next change. -/
def gather (hunk : Hunk) (left right : Nat) : List Segment → List Hunk
  | [] => [hunk]
  | .common ls :: rest =>
    if 2 * context < ls.length then
      let skipped := ls.length - context
      let done := { hunk with segments := hunk.segments ++ [.common (ls.take context)] }
      done :: gather ⟨left + skipped, right + skipped, [.common (lastLines context ls)]⟩
        (left + ls.length) (right + ls.length) rest
    else
      gather { hunk with segments := hunk.segments ++ [.common ls] }
        (left + ls.length) (right + ls.length) rest
  | .change removed added :: rest =>
    gather { hunk with segments := hunk.segments ++ [.change removed added] }
      (left + removed.length) (right + added.length) rest

/-- The segments without the common lines at the end that are past the context. -/
def trimEnd : List Segment → List Segment
  | [] => []
  | [.common ls] => [.common (ls.take context)]
  | s :: rest => s :: trimEnd rest

/-- The hunks of a comparison. -/
def hunks (segments : List Segment) : List Hunk :=
  match trimEnd segments with
  | .common ls :: rest =>
    let skipped := ls.length - context
    (gather ⟨skipped, skipped, []⟩ skipped skipped (.common (lastLines context ls) :: rest)).filter
      Hunk.hasChange
  | segments => (gather ⟨0, 0, []⟩ 0 0 segments).filter Hunk.hasChange

/-- The segments of the lines of two texts. -/
def compare (before after : Text) : List Segment :=
  let as := comparedLines before
  let bs := comparedLines after
  segments (isFrequent (occurrences bs) bs.length) as bs

/-- The unified diff of two texts, empty if they are the same. -/
def unified (path before after : Text) : Text :=
  if before = after then []
  else
    "--- a/" ++ path ++ "\n+++ b/" ++ path ++ "\n" ++
      (hunks (compare before after)).flatMap Hunk.render

end Reroute.Diff
