import Reroute.Diff.Unified
import Reroute.Proofs.Text.Decimal
import Reroute.Proofs.Text.Lines

/-!
# Applying a patch

The body of a patch is read line by line, as a tool that applies patches reads it. A line of ranges
opens a hunk and says where it stands in the old and in the new text and how many lines it has
there. The old lines up to the hunk are taken over, and both positions have to agree with what was
read and written so far. Inside a hunk a blank marks a line of both texts, a minus a line of the old
one and a plus a line of the new one. An old line that is not the next one stops the patch.

What a hunk writes is read back: under its ranges, and at its place, a hunk puts the lines of its
right side for those of its left side.

## Main definitions

* `Diff.Range.read?` — the range at the start of a text
* `Diff.Progress` — a patch in the course of being applied
* `Diff.patched?` — the lines that the body of a patch makes of old lines

## Main results

* `Diff.readRanges?_header` — the ranges of a hunk are read back
* `Diff.Progress.run_hunk` — what the lines of a hunk do
-/

namespace Reroute

/-- What follows the start of a text. -/
def Text.after? (lead t : Text) : Option Text :=
  if t.startsWith lead then some (t.drop lead.length) else none

theorem Text.after?_append (lead t : Text) : after? lead (lead ++ t) = some t := by
  have hlead : (lead ++ t).startsWith lead = true :=
    List.isPrefixOf_iff_prefix.2 (List.prefix_append lead t)
  rw [after?, if_pos hlead, List.drop_left]

namespace Diff

/-! ### Ranges -/

/-- Lines of a text: how many stand before them, and how many they are. -/
structure Range where
  before : Nat
  size : Nat
deriving DecidableEq, Repr

/-- The range at the start of a text: its first line and its size, which is one if it is not given.
A range without lines names the line before it. -/
def Range.read? (t : Text) : Option (Range × Text) := do
  let (first, rest) ← Text.number? t
  match Text.after? "," rest with
  | none => some (⟨first - 1, 1⟩, rest)
  | some more =>
    let (size, rest) ← Text.number? more
    some (⟨if size = 0 then first else first - 1, size⟩, rest)

/-- The ranges in the old and in the new text on the line that opens a hunk. -/
def readRanges? (line : Text) : Option (Range × Range) := do
  let rest ← Text.after? "@@ -" line
  let (left, rest) ← Range.read? rest
  let rest ← Text.after? " +" rest
  let (right, rest) ← Range.read? rest
  if rest = Text.ofString " @@\n" then some (left, right) else none

/-- A range is read back if a blank follows. -/
theorem Range.read?_range_append (before size : Nat) {rest : Text}
    (hrest : rest.head? = some (Text.byte ' ')) :
    Range.read? (Hunk.range before size ++ rest) = some (⟨before, size⟩, rest) := by
  obtain ⟨rest, rfl⟩ : ∃ more, rest = Text.byte ' ' :: more := List.head?_eq_some_iff.1 hrest
  have hblank : ∀ b ∈ (Text.byte ' ' :: rest).head?, Text.isDigit b = false := by
    rintro b ⟨⟩
    rfl
  have hcomma : ∀ t, ∀ b ∈ (Text.ofString "," ++ t : Text).head?, Text.isDigit b = false := by
    rintro t b ⟨⟩
    rfl
  have hnone : Text.after? "," (Text.byte ' ' :: rest) = none := rfl
  rw [Hunk.range]
  split
  case isTrue hone => simp [read?, Text.number?_ofNat_append hblank, hnone, hone]
  case isFalse =>
    -- both spellings with a comma are read the same way up to the first line
    have hread (first : Nat) :
        read? (Text.ofNat first ++ "," ++ Text.ofNat size ++ Text.byte ' ' :: rest) =
          some (⟨if size = 0 then first else first - 1, size⟩, Text.byte ' ' :: rest) := by
      rw [List.append_assoc, List.append_assoc]
      simp [read?, Text.number?_ofNat_append (hcomma _), Text.after?_append,
        Text.number?_ofNat_append hblank]
    split
    case isTrue hzero => rw [hread, if_pos hzero]
    case isFalse hzero => rw [hread, if_neg hzero, Nat.add_sub_cancel]

/-! ### The lines of a hunk -/

namespace Segment

/-- The lines of a segment with their marks. -/
def marked : Segment → List Text
  | common ls => ls.map (Text.byte ' ' :: ·)
  | change removed added => removed.map (Text.byte '-' :: ·) ++ added.map (Text.byte '+' :: ·)

theorem flatten_marked (s : Segment) : s.marked.flatten = s.render := by
  cases s <;> simp [marked, render, List.flatMap_def]

theorem isClosed_of_mem_marked {s : Segment} (hleft : ∀ l ∈ s.left, Text.IsClosed l)
    (hright : ∀ l ∈ s.right, Text.IsClosed l) : ∀ l ∈ s.marked, Text.IsClosed l := by
  cases s with
  | common ls =>
    refine List.forall_mem_map.2 fun l hl => ?_
    exact (hleft l hl).cons (by decide)
  | change removed added =>
    refine List.forall_mem_append.2 ⟨List.forall_mem_map.2 fun l hl => ?_,
      List.forall_mem_map.2 fun l hl => ?_⟩
    · exact (hleft l hl).cons (by decide)
    · exact (hright l hl).cons (by decide)

end Segment

namespace Hunk

/-- The lines of a hunk in the left list. -/
def leftLines (h : Hunk) : List Text := h.segments.flatMap Segment.left

/-- The lines of a hunk in the right list. -/
def rightLines (h : Hunk) : List Text := h.segments.flatMap Segment.right

/-- The line that opens a hunk. -/
def header (h : Hunk) : Text :=
  "@@ -" ++ (range h.left h.leftLines.length ++
    (" +" ++ (range h.right h.rightLines.length ++ Text.ofString " @@\n")))

/-- A hunk line by line. -/
def marked (h : Hunk) : List Text := h.header :: h.segments.flatMap Segment.marked

theorem flatten_marked (h : Hunk) : h.marked.flatten = h.render := by
  rw [marked, List.flatten_cons, Text.flatten_flatMap_of_forall Segment.flatten_marked, header,
    render]
  simp only [List.append_assoc]
  rfl

theorem newline_notMem_range (before size : Nat) : Text.newline ∉ range before size := by
  have hdigits : ∀ n, Text.newline ∉ Text.ofNat n := fun n hn =>
    absurd (Text.toNat_of_mem_ofNat hn).1 (by decide)
  have hcomma : Text.newline ∉ Text.ofString "," := by decide
  rw [range]
  split
  · exact hdigits _
  · split <;> simp [hdigits, hcomma]

theorem isClosed_header (h : Hunk) : Text.IsClosed h.header := by
  refine ⟨"@@ -" ++ (range h.left h.leftLines.length ++
    (" +" ++ (range h.right h.rightLines.length ++ Text.ofString " @@"))), ?_, ?_⟩
  · have hopen : Text.newline ∉ Text.ofString "@@ -" := by decide
    have hplus : Text.newline ∉ Text.ofString " +" := by decide
    have hclose : Text.newline ∉ Text.ofString " @@" := by decide
    simp only [List.mem_append, not_or]
    exact ⟨hopen, newline_notMem_range _ _, hplus, newline_notMem_range _ _, hclose⟩
  · simp only [header, List.append_assoc]
    rfl

end Hunk

/-- The ranges of a hunk are read back. -/
theorem readRanges?_header (h : Hunk) :
    readRanges? h.header =
      some (⟨h.left, h.leftLines.length⟩, ⟨h.right, h.rightLines.length⟩) := by
  have hleft (t : Text) :
      Range.read? (Hunk.range h.left h.leftLines.length ++ (Text.ofString " +" ++ t)) =
        some (⟨h.left, h.leftLines.length⟩, Text.ofString " +" ++ t) :=
    Range.read?_range_append _ _ rfl
  have hright :
      Range.read? (Hunk.range h.right h.rightLines.length ++ Text.ofString " @@\n") =
        some (⟨h.right, h.rightLines.length⟩, Text.ofString " @@\n") :=
    Range.read?_range_append _ _ rfl
  simp [readRanges?, Hunk.header, Text.after?_append, hleft, hright]

/-! ### Applying the lines -/

/-- A patch in the course of being applied. -/
structure Progress where
  /-- The lines of the old text that are not read yet. -/
  old : List Text
  /-- The number of its lines that were read. -/
  read : Nat
  /-- The lines of the new text so far. -/
  new : List Text
  /-- The lines of the old text that are still due in the hunk. -/
  oldDue : Nat
  /-- The lines of the new text that are still due in the hunk. -/
  newDue : Nat
deriving DecidableEq, Repr

namespace Progress

/-- Opens a hunk. The lines up to it are taken over, and it has to stand where its ranges say. -/
def enter (p : Progress) (left right : Range) : Option Progress :=
  let gap := p.old.take (left.before - p.read)
  if p.read + gap.length = left.before ∧ p.new.length + gap.length = right.before then
    some ⟨p.old.drop gap.length, left.before, p.new ++ gap, left.size, right.size⟩
  else none

/-- Leaves out the next line of the old text, which has to be the given one. -/
def remove (line : Text) (p : Progress) : Option Progress :=
  if p.old.head? = some line ∧ 0 < p.oldDue then
    some { p with old := p.old.tail, read := p.read + 1, oldDue := p.oldDue - 1 }
  else none

/-- Puts a line into the new text. -/
def add (line : Text) (p : Progress) : Option Progress :=
  if 0 < p.newDue then some { p with new := p.new ++ [line], newDue := p.newDue - 1 } else none

/-- Follows one marked line of a hunk. -/
def follow (p : Progress) : Text → Option Progress
  | [] => none
  | mark :: line =>
    if mark = Text.byte ' ' then p.remove line >>= add line
    else if mark = Text.byte '-' then p.remove line
    else if mark = Text.byte '+' then p.add line
    else none

/-- One line of a patch. It opens a hunk if no line is due in the last one. -/
def step (p : Progress) (line : Text) : Option Progress :=
  if p.oldDue = 0 ∧ p.newDue = 0 then do
    let (left, right) ← readRanges? line
    p.enter left right
  else p.follow line

/-- The lines of a patch, one after the other. -/
def run (p : Progress) : List Text → Option Progress
  | [] => some p
  | line :: rest => p.step line >>= fun q => q.run rest

/-- The new text at the end of a patch: what follows the last hunk is taken over. -/
def result? (p : Progress) : Option (List Text) :=
  if p.oldDue = 0 ∧ p.newDue = 0 then some (p.new ++ p.old) else none

end Progress

/-- The lines that the body of a patch makes of old lines. -/
def patched? (old : List Text) (body : Text) : Option (List Text) :=
  (Progress.run ⟨old, 0, [], 0, 0⟩ (body.lines.filter fun l => !l.isEmpty)) >>= Progress.result?

namespace Progress

variable {old new gap : List Text} {read n m : Nat} {l : Text}

theorem run_append (p : Progress) (ls ms : List Text) :
    p.run (ls ++ ms) = p.run ls >>= fun q => q.run ms := by
  induction ls generalizing p with
  | nil => rfl
  | cons l ls ih =>
    rw [List.cons_append, run, run, bind_assoc]
    exact congrArg _ (funext fun q => ih q)

/-! ### Marked lines -/

theorem step_common :
    step ⟨l :: old, read, new, n + 1, m + 1⟩ (Text.byte ' ' :: l) =
      some ⟨old, read + 1, new ++ [l], n, m⟩ := by
  simp [step, follow, remove, add]

theorem step_removed :
    step ⟨l :: old, read, new, n + 1, m⟩ (Text.byte '-' :: l) =
      some ⟨old, read + 1, new, n, m⟩ := by
  have hmark : Text.byte '-' ≠ Text.byte ' ' := by decide
  simp [step, follow, remove, hmark]

theorem step_added :
    step ⟨old, read, new, n, m + 1⟩ (Text.byte '+' :: l) =
      some ⟨old, read, new ++ [l], n, m⟩ := by
  have hblank : Text.byte '+' ≠ Text.byte ' ' := by decide
  have hminus : Text.byte '+' ≠ Text.byte '-' := by decide
  simp [step, follow, add, hblank, hminus]

theorem run_common (ls : List Text) (read : Nat) (new : List Text) :
    run ⟨ls ++ old, read, new, ls.length + n, ls.length + m⟩ (ls.map (Text.byte ' ' :: ·)) =
      some ⟨old, read + ls.length, new ++ ls, n, m⟩ := by
  induction ls generalizing read new with
  | nil => simp [run]
  | cons l ls ih =>
    rw [List.map_cons, run, List.cons_append, List.length_cons, Nat.add_right_comm _ 1 n,
      Nat.add_right_comm _ 1 m, step_common]
    simpa [Nat.add_assoc, Nat.add_comm 1] using ih (read + 1) (new ++ [l])

theorem run_removed (ls : List Text) (read : Nat) :
    run ⟨ls ++ old, read, new, ls.length + n, m⟩ (ls.map (Text.byte '-' :: ·)) =
      some ⟨old, read + ls.length, new, n, m⟩ := by
  induction ls generalizing read with
  | nil => simp [run]
  | cons l ls ih =>
    rw [List.map_cons, run, List.cons_append, List.length_cons, Nat.add_right_comm _ 1 n,
      step_removed]
    simpa [Nat.add_assoc, Nat.add_comm 1] using ih (read + 1)

theorem run_added (ls : List Text) (new : List Text) :
    run ⟨old, read, new, n, ls.length + m⟩ (ls.map (Text.byte '+' :: ·)) =
      some ⟨old, read, new ++ ls, n, m⟩ := by
  induction ls generalizing new with
  | nil => simp [run]
  | cons l ls ih =>
    rw [List.map_cons, run, List.length_cons, Nat.add_right_comm _ 1 m, step_added]
    simpa using ih (new ++ [l])

/-- The lines of a segment put its right side for its left side. -/
theorem run_segment (s : Segment) (read : Nat) (new : List Text) :
    run ⟨s.left ++ old, read, new, s.left.length + n, s.right.length + m⟩ s.marked =
      some ⟨old, read + s.left.length, new ++ s.right, n, m⟩ := by
  cases s with
  | common ls => exact run_common ls read new
  | change removed added =>
    rw [Segment.marked, run_append]
    simp only [Segment.left, Segment.right, run_removed, Option.bind_eq_bind, Option.bind_some]
    exact run_added added new

theorem run_segments (ss : List Segment) (read : Nat) (new : List Text) :
    run ⟨ss.flatMap Segment.left ++ old, read, new, (ss.flatMap Segment.left).length + n,
        (ss.flatMap Segment.right).length + m⟩ (ss.flatMap Segment.marked) =
      some ⟨old, read + (ss.flatMap Segment.left).length,
        new ++ ss.flatMap Segment.right, n, m⟩ := by
  induction ss generalizing read new with
  | nil => simp [run]
  | cons s ss ih =>
    simp only [List.flatMap_cons, List.length_append, List.append_assoc, Nat.add_assoc]
    rw [run_append, run_segment]
    simpa [Nat.add_assoc] using ih (read + s.left.length) (new ++ s.right)

/-- Where no line is due, the first line of a hunk takes over the lines up to it. -/
theorem step_header {h : Hunk} (hleft : h.left = read + gap.length)
    (hright : h.right = new.length + gap.length) :
    step ⟨gap ++ old, read, new, 0, 0⟩ h.header =
      some ⟨old, h.left, new ++ gap, h.leftLines.length, h.rightLines.length⟩ := by
  have hgap : (gap ++ old).take (h.left - read) = gap := by
    rw [hleft, Nat.add_sub_cancel_left, List.take_left]
  simp only [step, and_self, if_pos, readRanges?_header, Option.bind_eq_bind, Option.bind_some,
    enter, hgap]
  rw [if_pos ⟨hleft.symm, hright.symm⟩, List.drop_left]

/-- At its place a hunk puts its right lines for its left lines. -/
theorem run_hunk {h : Hunk} (hleft : h.left = read + gap.length)
    (hright : h.right = new.length + gap.length) :
    run ⟨gap ++ h.leftLines ++ old, read, new, 0, 0⟩ h.marked =
      some ⟨old, h.left + h.leftLines.length, new ++ gap ++ h.rightLines, 0, 0⟩ := by
  rw [Hunk.marked, run, List.append_assoc, step_header hleft hright]
  exact run_segments (n := 0) (m := 0) h.segments h.left (new ++ gap)

end Progress

end Diff

end Reroute
