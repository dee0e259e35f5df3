import Reroute.Text.Basic

/-!
# The order of texts

The bytewise order of texts is a linear order, so sorting leaves them in strictly ascending order
unless one occurs twice.

## Main results

* `Text.lt_or_eq_or_lt` — one of two texts comes first, or they are the same
* `Text.pairwise_lt_sort` — sorted texts are strictly increasing
-/

namespace Reroute.Text

theorem lt_irrefl (a : Text) : lt a a = false := by
  induction a with
  | nil => rfl
  | cons x a ih => simp [lt, ih]

theorem lt_trans {a b c : Text} (hab : lt a b = true) (hbc : lt b c = true) : lt a c = true := by
  induction a generalizing b c with
  | nil =>
    cases c with
    | nil => cases b <;> cases hbc
    | cons z c => rfl
  | cons x a ih =>
    cases b with
    | nil => cases hab
    | cons y b =>
      cases c with
      | nil => cases hbc
      | cons z c =>
        simp only [lt, Bool.or_eq_true, decide_eq_true_eq, Bool.and_eq_true, beq_iff_eq]
          at hab hbc ⊢
        rcases hab with hxy | ⟨rfl, hab⟩
        · rcases hbc with hyz | ⟨rfl, -⟩
          · exact .inl (UInt8.lt_trans hxy hyz)
          · exact .inl hxy
        · exact hbc.imp_right fun ⟨hyz, hbc⟩ => ⟨hyz, ih hab hbc⟩

/-- One of two texts comes first, or they are the same. -/
theorem lt_or_eq_or_lt (a b : Text) : lt a b = true ∨ a = b ∨ lt b a = true := by
  induction a generalizing b with
  | nil =>
    cases b with
    | nil => exact .inr (.inl rfl)
    | cons y b => exact .inl rfl
  | cons x a ih =>
    cases b with
    | nil => exact .inr (.inr rfl)
    | cons y b =>
      simp only [lt, Bool.or_eq_true, decide_eq_true_eq, Bool.and_eq_true, beq_iff_eq,
        List.cons.injEq]
      by_cases hxy : x = y
      · subst hxy
        simpa using ih b
      · exact (UInt8.lt_or_lt_of_ne hxy).imp .inl fun hlt => .inr (.inl hlt)

theorem le_iff {a b : Text} : le a b = true ↔ a = b ∨ lt a b = true := by
  rw [le, Bool.not_eq_true']
  constructor
  · intro h
    rcases lt_or_eq_or_lt a b with hlt | heq | hgt
    · exact .inr hlt
    · exact .inl heq
    · rw [h] at hgt
      cases hgt
  · rintro (rfl | hlt)
    · exact lt_irrefl a
    · -- otherwise the text would come before itself
      rw [← Bool.not_eq_true]
      intro hgt
      have hself := lt_trans hlt hgt
      rw [lt_irrefl] at hself
      cases hself

/-- Texts without repetition are strictly increasing once they are sorted. -/
theorem pairwise_lt_sort {ts : List Text} (h : ts.Nodup) :
    (sort ts).Pairwise fun a b => lt a b = true := by
  have hle : (sort ts).Pairwise fun a b => le a b = true := by
    refine List.pairwise_mergeSort (fun a b c hab hbc => ?_) (fun a b => ?_) ts
    · rw [le_iff] at hab hbc ⊢
      rcases hab with rfl | hab
      · exact hbc
      · rcases hbc with rfl | hbc
        · exact .inr hab
        · exact .inr (lt_trans hab hbc)
    · rw [Bool.or_eq_true, le_iff, le_iff]
      rcases lt_or_eq_or_lt a b with hlt | heq | hgt
      · exact .inl (.inr hlt)
      · exact .inl (.inl heq)
      · exact .inr (.inr hgt)
  have hne : (sort ts).Nodup := (List.mergeSort_perm ts le).nodup_iff.2 h
  exact (hle.and hne).imp fun {a b} hab => (le_iff.1 hab.1).resolve_left hab.2

end Reroute.Text
