import Mathlib.Data.List.Infix
import Reroute.Output.Colour
import Reroute.Proofs.Text.Lines

/-!
# Diffs to a sink that gives up

A coloured line takes three writes, of which only the second one matters: the sink may refuse the
colour sequence or the reset, and the next line is tried all the same. A sink that accepts a number
of writes and refuses all later ones still gets the beginning of what it would get without a bound.
After a refusal nothing more is accepted, so it makes no difference that the lines after a refused
one are not tried.

## Main definitions

* `Sink.limited` — a sink that accepts a number of writes
* `DiffWrite`, `diffWrites` — the writes of a diff, with the lines told from the sequences
* `Sink.fill` — writes one after the other, whether they are refused or not

## Main results

* `Sink.fill_eq_of_budget` — a sink with a budget takes the first writes
* `Sink.fst_putDiffLines` — stopping at a refused line leaves the same sink
* `Sink.snd_putDiffLines_iff` — what it means that no line was refused
* `Sink.putDiff_limited` — a diff to a sink that accepts a number of writes
-/

namespace Reroute

/-- A write of a diff: a line of it, or a sequence that sets or resets the colour. -/
inductive DiffWrite where
  | line (t : Text)
  | sequence (t : Text)
deriving DecidableEq, Repr

namespace DiffWrite

/-- What is written. -/
def text : DiffWrite → Text
  | line t => t
  | sequence t => t

/-- The line that is written, if it is one. -/
def line? : DiffWrite → Option Text
  | line t => some t
  | sequence _ => none

end DiffWrite

/-- The writes of one line. -/
def DiffLine.writes (coloured : Bool) (line : Text) : List DiffWrite :=
  match (DiffLine.ofText line).colour? with
  | none => [.line line]
  | some colour =>
    if coloured then [.sequence colour, .line line, .sequence DiffLine.reset] else [.line line]

/-- A line between its colour and the reset, if lines of its kind have a colour. -/
def DiffLine.painted (line : Text) : Text :=
  match (DiffLine.ofText line).colour? with
  | none => line
  | some colour => colour ++ line ++ DiffLine.reset

/-- The writes of a diff: those of its lines, empty ones left out. -/
def diffWrites (coloured : Bool) (diff : Text) : List DiffWrite :=
  (diff.lines.filter fun line => !line.isEmpty).flatMap (DiffLine.writes coloured)

namespace Sink

/-- A sink that accepts the first `n` writes of any kind and refuses all later ones. -/
def limited (n : Nat) : Sink := ⟨some n, true, []⟩

/-- The sink after some writes, none of which is waited for. -/
def fill (s : Sink) (ts : List Text) : Sink := ts.foldl (fun s t => (s.put t).1) s

variable {s : Sink} {coloured : Bool} {lines : List Text}

/-! ### Writes that may be refused -/

theorem fill_cons (s : Sink) (t : Text) (ts : List Text) :
    s.fill (t :: ts) = (s.put t).1.fill ts := rfl

theorem fill_append (s : Sink) (ts us : List Text) : s.fill (ts ++ us) = (s.fill ts).fill us :=
  List.foldl_append

/-- A sink whose budget is used up stays as it is. -/
theorem fill_of_exhausted (h : s.budget = some 0) (ts : List Text) : s.fill ts = s := by
  induction ts with
  | nil => rfl
  | cons t ts ih => rw [fill_cons, put, h, ih]

/-- A sink with a budget takes the first writes. -/
theorem fill_eq_of_budget (n : Nat) (m : Bool) (earlier ts : List Text) :
    (⟨some n, m, earlier⟩ : Sink).fill ts =
      ⟨some (n - ts.length), m, (ts.take n).reverse ++ earlier⟩ := by
  induction ts generalizing n earlier with
  | nil => simp [fill]
  | cons t ts ih =>
    cases n with
    | zero => simp [fill_of_exhausted]
    | succ n =>
      rw [fill_cons, put, ih]
      simp

/-- A sink without a bound takes all writes. -/
theorem fill_of_unbounded (m : Bool) (earlier ts : List Text) :
    (⟨none, m, earlier⟩ : Sink).fill ts = ⟨none, m, ts.reverse ++ earlier⟩ := by
  induction ts generalizing earlier with
  | nil => rfl
  | cons t ts ih =>
    rw [fill_cons, put, ih]
    simp

theorem metersPlain_fill (ts : List Text) : (s.fill ts).metersPlain = s.metersPlain := by
  obtain ⟨_ | n, m, earlier⟩ := s
  · rw [fill_of_unbounded]
  · rw [fill_eq_of_budget]

/-- A sink refuses only once its budget is used up. -/
theorem put_of_refused {t : Text} (h : (s.put t).2 = false) :
    s.budget = some 0 ∧ (s.put t).1 = s := by
  rw [put] at h ⊢
  split at h
  · cases h
  · rename_i hbudget
    simp [hbudget]
  · cases h

/-! ### One line -/

/-- A line is one write, or it is the second of three. -/
theorem putDiffLine_cases (hm : s.metersPlain = true) (coloured : Bool) (line : Text) :
    DiffLine.writes coloured line = [.line line] ∧ s.putDiffLine coloured line = s.put line ∨
    ∃ colour, DiffLine.writes coloured line =
        [.sequence colour, .line line, .sequence DiffLine.reset] ∧
      s.putDiffLine coloured line =
        ((((s.put colour).1.put line).1.put DiffLine.reset).1, ((s.put colour).1.put line).2) := by
  rw [putDiffLine, DiffLine.writes]
  cases (DiffLine.ofText line).colour? with
  | none => exact .inl ⟨rfl, if_pos hm⟩
  | some colour =>
    cases coloured with
    | false => exact .inl ⟨rfl, rfl⟩
    | true => exact .inr ⟨colour, rfl, rfl⟩

theorem fst_putDiffLine (hm : s.metersPlain = true) (coloured : Bool) (line : Text) :
    (s.putDiffLine coloured line).1 =
      s.fill ((DiffLine.writes coloured line).map DiffWrite.text) := by
  obtain ⟨hwrites, hput⟩ | ⟨colour, hwrites, hput⟩ := putDiffLine_cases hm coloured line <;>
    rw [hwrites, hput] <;> rfl

/-- After a refused line nothing is accepted any more. -/
theorem budget_of_refused (hm : s.metersPlain = true) (coloured : Bool) (line : Text)
    (h : (s.putDiffLine coloured line).2 = false) :
    (s.putDiffLine coloured line).1.budget = some 0 := by
  obtain ⟨-, hput⟩ | ⟨colour, -, hput⟩ := putDiffLine_cases hm coloured line
  · rw [hput] at h ⊢
    obtain ⟨hbudget, hsame⟩ := put_of_refused h
    rw [hsame, hbudget]
  · -- the colour may have used up what was left
    rw [hput] at h ⊢
    obtain ⟨hbudget, hsame⟩ := put_of_refused h
    rw [hsame, put, hbudget]
    exact hbudget

/-- Among the writes of a line that a budget allows is the line itself, just if it is accepted. -/
theorem filterMap_take_writes (n : Nat) (earlier : List Text) (coloured : Bool) (line : Text) :
    ((DiffLine.writes coloured line).take n).filterMap DiffWrite.line? =
      if ((⟨some n, true, earlier⟩ : Sink).putDiffLine coloured line).2 then [line] else [] := by
  obtain ⟨hwrites, hput⟩ | ⟨colour, hwrites, hput⟩ :=
    putDiffLine_cases (s := ⟨some n, true, earlier⟩) rfl coloured line <;> rw [hwrites, hput]
  · cases n <;> simp [put, DiffWrite.line?]
  · match n with
    | 0 => rfl
    | 1 => rfl
    | n + 2 => cases n <;> simp [put, List.filterMap_cons, DiffWrite.line?]

/-! ### All lines -/

/-- Stopping at a refused line leaves the same sink as going on would. -/
theorem fst_putDiffLines (hm : s.metersPlain = true) :
    (s.putDiffLines coloured lines).1 =
      s.fill ((lines.flatMap (DiffLine.writes coloured)).map DiffWrite.text) := by
  induction lines generalizing s with
  | nil => rfl
  | cons line lines ih =>
    have hline := fst_putDiffLine hm coloured line
    rw [putDiffLines, List.flatMap_cons, List.map_append, fill_append, ← hline]
    split
    · rename_i s' hput
      rw [hput] at hline ⊢
      refine ih ?_
      change s' = _ at hline
      rw [hline, metersPlain_fill, hm]
    · rename_i s' hput
      have hbudget : s'.budget = some 0 := by
        simpa [hput] using budget_of_refused hm coloured line (by rw [hput])
      rw [hput]
      exact (fill_of_exhausted hbudget _).symm

/-- No line is refused just if the writes that the budget allows hold all lines. -/
theorem snd_putDiffLines_iff (n : Nat) (earlier : List Text) :
    ((⟨some n, true, earlier⟩ : Sink).putDiffLines coloured lines).2 = true ↔
      ((lines.flatMap (DiffLine.writes coloured)).take n).filterMap DiffWrite.line? = lines := by
  induction lines generalizing n earlier with
  | nil => simp [putDiffLines]
  | cons line lines ih =>
    have hfst := fst_putDiffLine (s := ⟨some n, true, earlier⟩) rfl coloured line
    have htake := filterMap_take_writes n earlier coloured line
    rw [fill_eq_of_budget, List.length_map] at hfst
    rw [putDiffLines, List.flatMap_cons, List.take_append, List.filterMap_append, htake]
    split
    · rename_i s' hput
      rw [hput] at hfst ⊢
      change s' = _ at hfst
      rw [hfst, ih, if_pos rfl, List.singleton_append, List.cons.injEq, and_iff_right rfl]
    · rename_i s' hput
      -- the budget is used up inside of the writes of this line
      have hbudget := budget_of_refused (s := ⟨some n, true, earlier⟩) rfl coloured line
        (by rw [hput])
      rw [hfst, Option.some.injEq] at hbudget
      simp [hput, hbudget]

/-! ### The output -/

/-- Without empty lines the same text is written. -/
theorem flatMap_filter_ne_nil {f : Text → Text} (hf : f [] = []) (ls : List Text) :
    (ls.filter fun l => !l.isEmpty).flatMap f = ls.flatMap f := by
  induction ls with
  | nil => rfl
  | cons l ls ih => cases l <;> simp [hf, ih]

theorem flatMap_writes (coloured : Bool) (line : Text) :
    (DiffLine.writes coloured line).flatMap DiffWrite.text =
      if coloured then DiffLine.painted line else line := by
  rw [DiffLine.writes, DiffLine.painted]
  split
  · simp [DiffWrite.text]
  · cases coloured <;> simp [DiffWrite.text]

theorem flatten_diffWrites (coloured : Bool) (diff : Text) :
    ((diffWrites coloured diff).map DiffWrite.text).flatten =
      diff.lines.flatMap fun line => if coloured then DiffLine.painted line else line := by
  rw [← List.flatMap_def, diffWrites, List.flatMap_assoc]
  simp only [flatMap_writes]
  refine flatMap_filter_ne_nil ?_ _
  cases coloured <;> rfl

/-- The writes of a diff that a sink without a bound gets. -/
theorem accepted_unlimited (coloured : Bool) (diff : Text) :
    (unlimited.putDiff coloured diff).1.accepted.reverse =
      (diffWrites coloured diff).map DiffWrite.text := by
  rw [putDiff, fst_putDiffLines rfl, unlimited, fill_of_unbounded]
  simp [diffWrites]

/-- A diff to a sink that accepts the first `n` writes and refuses all later ones. The sink gets the
first `n` of the writes that a sink without a bound gets, so its output is a beginning of the whole
output. The whole output is the diff itself without colour, and with colour it is the lines of the
diff, those of a coloured kind between a sequence and the reset. The diff is reported as accepted
just if all its lines that are not empty are among the accepted writes. -/
theorem putDiff_limited (n : Nat) (coloured : Bool) (diff : Text) :
    let full := (unlimited.putDiff coloured diff).1
    let got := (limited n).putDiff coloured diff
    full.accepted.reverse = (diffWrites coloured diff).map DiffWrite.text ∧
    got.1.accepted.reverse = full.accepted.reverse.take n ∧
    got.1.output <+: full.output ∧
    (coloured = false → full.output = diff) ∧
    (coloured = true → full.output = diff.lines.flatMap DiffLine.painted) ∧
    diff.lines.flatten = diff ∧
    (got.2 = true ↔ ((diffWrites coloured diff).take n).filterMap DiffWrite.line? =
      diff.lines.filter fun line => !line.isEmpty) := by
  intro full got
  have hfull : full.accepted.reverse = (diffWrites coloured diff).map DiffWrite.text :=
    accepted_unlimited coloured diff
  have hgot : got.1.accepted.reverse = full.accepted.reverse.take n := by
    rw [hfull]
    change (((limited n).putDiff coloured diff).1).accepted.reverse = _
    rw [putDiff, fst_putDiffLines rfl, limited, fill_eq_of_budget]
    simp [diffWrites]
  have houtput : full.output =
      diff.lines.flatMap fun line => if coloured then DiffLine.painted line else line := by
    rw [output, hfull, flatten_diffWrites]
  refine ⟨hfull, hgot, ?_, ?_, ?_, Text.flatten_lines diff, snd_putDiffLines_iff n []⟩
  · rw [output, output, hgot]
    exact (List.take_prefix _ _).flatten
  · rintro rfl
    rw [houtput]
    simpa using Text.flatten_lines diff
  · rintro rfl
    rw [houtput]
    simp

end Sink

end Reroute
