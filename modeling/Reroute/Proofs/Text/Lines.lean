import Mathlib.Data.List.Basic
import Reroute.Text.Basic

/-!
# Lines of a text

A text is cut behind its newlines. Every line but the last one is closed by a newline, and the last
one has none. Put together again the lines give the text, and closed lines put together are cut into
themselves.

## Main definitions

* `Text.IsClosed` — lines with a newline at their end and nowhere else

## Main results

* `Text.flatten_lines` — the lines make up the text
* `Text.exists_lines_eq` — all lines but the last are closed
* `Text.lines_flatten` — the lines of closed lines
-/

namespace Reroute.Text

variable {t w l : Text} {ls : List Text}

/-- A line that ends with its only newline. -/
def IsClosed (l : Text) : Prop := ∃ w, newline ∉ w ∧ l = w ++ [newline]

theorem isClosed_append_newline (h : newline ∉ w) : IsClosed (w ++ [newline]) := ⟨w, h, rfl⟩

theorem IsClosed.ne_nil (h : IsClosed l) : l ≠ [] := by
  obtain ⟨w, -, rfl⟩ := h
  simp

/-- A mark before a line leaves it closed. -/
theorem IsClosed.cons {b : UInt8} (hb : b ≠ newline) (h : IsClosed l) : IsClosed (b :: l) := by
  obtain ⟨w, hw, rfl⟩ := h
  exact ⟨b :: w, by simpa [hb.symm] using hw, rfl⟩

/-! ### Cutting a text -/

theorem lines_newline_cons (t : Text) : lines (newline :: t) = [newline] :: lines t := by
  rw [lines, if_pos rfl]

theorem exists_lines_eq_cons (t : Text) : ∃ l ls, lines t = l :: ls := by
  cases t with
  | nil => exact ⟨_, _, rfl⟩
  | cons b rest =>
    rw [lines]
    split
    · exact ⟨_, _, rfl⟩
    · split <;> exact ⟨_, _, rfl⟩

theorem lines_cons_of_ne {b : UInt8} (hb : b ≠ newline) (h : lines t = l :: ls) :
    lines (b :: t) = (b :: l) :: ls := by
  rw [lines, if_neg hb, h]

/-- Without a newline a text goes before the first line. -/
theorem lines_append_of_not_mem (hw : newline ∉ w) (h : lines t = l :: ls) :
    lines (w ++ t) = (w ++ l) :: ls := by
  induction w with
  | nil => exact h
  | cons b w ih =>
    obtain ⟨hb, hw⟩ := not_or.1 (mt List.mem_cons.2 hw)
    exact lines_cons_of_ne (Ne.symm hb) (ih hw)

/-- A closed line is the first one. -/
theorem lines_append_of_isClosed (h : IsClosed l) (t : Text) : lines (l ++ t) = l :: lines t := by
  obtain ⟨w, hw, rfl⟩ := h
  rw [List.append_assoc, List.singleton_append, lines_append_of_not_mem hw (lines_newline_cons t)]

/-- Closed lines are cut into themselves, and nothing follows the last newline. -/
theorem lines_flatten (h : ∀ l ∈ ls, IsClosed l) : lines ls.flatten = ls ++ [[]] := by
  induction ls with
  | nil => rfl
  | cons l ls ih =>
    obtain ⟨hl, hls⟩ := List.forall_mem_cons.1 h
    rw [List.flatten_cons, lines_append_of_isClosed hl, ih hls, List.cons_append]

theorem filter_lines_flatten (h : ∀ l ∈ ls, IsClosed l) :
    (lines ls.flatten).filter (fun l => !l.isEmpty) = ls := by
  rw [lines_flatten h, List.filter_append, List.filter_eq_self.2 fun l hl => ?_]
  · exact List.append_nil ls
  · simpa using (h l hl).ne_nil

/-- Lines that are listed part by part are put together part by part. -/
theorem flatten_flatMap_of_forall {α : Type} {lines : α → List Text} {text : α → Text}
    (h : ∀ x, (lines x).flatten = text x) (xs : List α) :
    (xs.flatMap lines).flatten = xs.flatMap text := by
  simp only [List.flatMap_def, List.flatten_flatten, List.map_map, Function.comp_def, h]

/-- All lines but the last are closed, and the last one has no newline. -/
theorem exists_lines_eq (t : Text) :
    ∃ front last, lines t = front ++ [last] ∧ (∀ l ∈ front, IsClosed l) ∧ newline ∉ last := by
  induction t with
  | nil => exact ⟨[], [], rfl, by simp, by simp⟩
  | cons b rest ih =>
    obtain ⟨front, last, hlines, hfront, hlast⟩ := ih
    by_cases hb : b = newline
    · subst hb
      have hclosed : IsClosed [newline] := isClosed_append_newline (w := []) (by simp)
      exact ⟨[newline] :: front, last, by rw [lines_newline_cons, hlines]; rfl,
        List.forall_mem_cons.2 ⟨hclosed, hfront⟩, hlast⟩
    · cases front with
      | nil =>
        exact ⟨[], b :: last, lines_cons_of_ne hb hlines, by simp,
          by simpa [Ne.symm hb] using hlast⟩
      | cons l front =>
        obtain ⟨hl, hfront⟩ := List.forall_mem_cons.1 hfront
        exact ⟨(b :: l) :: front, last, lines_cons_of_ne hb hlines,
          List.forall_mem_cons.2 ⟨hl.cons hb, hfront⟩, hlast⟩

/-- The lines make up the text. -/
theorem flatten_lines (t : Text) : (lines t).flatten = t := by
  induction t with
  | nil => rfl
  | cons b rest ih =>
    by_cases hb : b = newline
    · rw [hb, lines_newline_cons, List.flatten_cons, ih, List.singleton_append]
    · obtain ⟨l, ls, hlines⟩ := exists_lines_eq_cons rest
      rw [lines_cons_of_ne hb hlines, List.flatten_cons, List.cons_append, ← List.flatten_cons,
        ← hlines, ih]

end Reroute.Text
