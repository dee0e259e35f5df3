import Reroute.Proofs.Failure
import Reroute.Proofs.Idempotence

/-!
# The helper is installed once

An installation only adds the definition, directly behind the first anchor. All that stands up to
there stays as it is, so that anchor is still the first one, also if the definition has anchors of
its own. The definition has the mark of the helper's presence, so whatever is attempted afterwards
finds it and leaves the text alone.

## Main definitions

* `Text.FirstAt` — the place of the first occurrence
* `Helper.attempts?` — several attempts in a row

## Main results

* `Text.cut?_append_left` — the first occurrence does not depend on what follows it
* `Helper.attempts?_eq_self` — a text that has the anchor and the helper is left alone for good
* `Helper.attempt?_installs_once` — all that attempts at an installation do
-/

namespace Reroute

namespace Text

variable {t w x y : Text} {i : Nat}

/-- The first occurrence of a text in another one starts at an offset. -/
def FirstAt (w t : Text) (i : Nat) : Prop := w <+: t.drop i ∧ ∀ k < i, ¬ w <+: t.drop k

/-- A cut is made at the first occurrence. -/
theorem firstAt_of_cut? (hw : w ≠ []) (h : cut? t w = some (x, y)) : FirstAt w t x.length := by
  refine ⟨?_, not_prefix_drop_of_cut? hw h⟩
  rw [eq_append_of_cut? h, List.drop_left]
  exact List.prefix_append w y

/-- The first occurrence does not depend on what follows it. -/
theorem cut?_append_left (hw : w ≠ []) (h : cut? t w = some (x, y)) (z : Text) :
    cut? (x ++ (w ++ z)) w = some (x, z) :=
  (cut?_eq_some_iff hw).2 ⟨rfl, not_infix_of_cut? h hw⟩

end Text

open Text

namespace Helper

variable {h : Helper} {anchor t out : Text} {installed : Bool}

/-- The answer of the last of `n + 1` attempts. Each is made at the text that the one before it has
handed back. -/
def attempts? (h : Helper) (anchor : Text) : Nat → Text → Option (Handover Bool)
  | 0, t => h.attempt? anchor t
  | n + 1, t => (h.attempt? anchor t).bind fun done => h.attempts? anchor n done.text

/-! ### One attempt -/

theorem attempt?_eq_error_iff (hanchor : anchor ≠ []) {back : Text} {e : PatchError} :
    h.attempt? anchor t = some ⟨back, .error e⟩ ↔
      ¬ anchor <:+: t ∧ back = t ∧ e = .anchorMissing anchor := by
  rw [attempt?_eq, handed?_eq_error_iff, install_eq_error_iff hanchor]
  constructor
  · rintro ⟨⟨hmissing, rfl⟩, -, rfl⟩
    exact ⟨hmissing, rfl, rfl⟩
  · rintro ⟨hmissing, rfl, rfl⟩
    exact ⟨⟨hmissing, rfl⟩, by simp, rfl⟩

/-- A text with the anchor takes the helper, or has it. -/
theorem exists_attempt?_eq_ok (h : Helper) (hanchor : anchor ≠ []) (ha : anchor <:+: t) :
    ∃ out installed, h.attempt? anchor t = some ⟨out, .ok installed⟩ := by
  cases hinstall : h.install anchor t with
  | error e => exact absurd ha ((install_eq_error_iff hanchor).1 hinstall).1
  | ok done => exact ⟨done.1, done.2, by rw [attempt?_eq, hinstall, handed?_ok]⟩

/-- The definition goes in just if the mark of the helper's presence is missing. -/
theorem installed_iff (hident : h.ident ≠ []) (hdone : h.install anchor t = .ok (out, installed)) :
    installed = true ↔ ¬ h.ident <:+: t := by
  obtain ⟨-, -, -, ⟨rfl, -, hhere⟩ | ⟨rfl, -, hmissing⟩⟩ := install_cases hdone
  · simp [includes_iff.1 hhere]
  · have hnot := hmissing.resolve_left hident
    simp [← includes_iff, hnot]

/-- The definition goes in directly behind the first anchor, and this one stays the first. -/
theorem inserted_of_install (hanchor : anchor ≠ []) (hdone : h.install anchor t = .ok (out, true)) :
    ∃ i place, place = i + anchor.length ∧ FirstAt anchor t i ∧
      out = t.take place ++ (h.definition ++ t.drop place) ∧
      out.take place ++ out.drop (place + h.definition.length) = t ∧ FirstAt anchor out i := by
  obtain ⟨x, y, hcut, ⟨hfalse, -⟩ | ⟨-, rfl, -⟩⟩ := install_cases hdone
  · cases hfalse
  have ht : t = (x ++ anchor) ++ y := by
    rw [List.append_assoc]
    exact eq_append_of_cut? hcut
  have hplace : x.length + anchor.length = (x ++ anchor).length := List.length_append.symm
  refine ⟨x.length, x.length + anchor.length, rfl, firstAt_of_cut? hanchor hcut, ?_, ?_,
    firstAt_of_cut? hanchor (cut?_append_left hanchor hcut _)⟩
  · rw [hplace, ht, List.take_left, List.drop_left, List.append_assoc]
  · rw [hplace, ← List.append_assoc, List.take_left, ← List.drop_drop, List.drop_left,
      List.drop_left, ht]

/-! ### Attempts in a row -/

theorem attempt?_eq_self (hanchor : anchor ≠ []) (hident : h.ident ≠ []) (ha : anchor <:+: t)
    (hi : h.ident <:+: t) : h.attempt? anchor t = some ⟨t, .ok false⟩ := by
  rw [attempt?_eq, install_eq_self hanchor hident ha hi, handed?_ok]

/-- A text that has the anchor and the helper is left alone by any number of attempts. -/
theorem attempts?_eq_self (hanchor : anchor ≠ []) (hident : h.ident ≠ []) (ha : anchor <:+: t)
    (hi : h.ident <:+: t) (n : Nat) : h.attempts? anchor n t = some ⟨t, .ok false⟩ := by
  induction n with
  | zero => exact attempt?_eq_self hanchor hident ha hi
  | succ n ih => rw [attempts?, attempt?_eq_self hanchor hident ha hi, Option.bind_some, ih]

/-- An attempt fails just if the text has no anchor. Otherwise the definition goes in just if the
text does not have the helper, directly behind the first anchor; taking it out there gives the text
back, and that anchor is still the first one. Further attempts, however many, change nothing. -/
theorem attempt?_installs_once (h : Helper) (anchor t : Text) (hanchor : anchor ≠ [])
    (hident : h.ident ≠ []) (hdefinition : h.ident <:+: h.definition) :
    (∀ back e, h.attempt? anchor t = some ⟨back, .error e⟩ ↔
      ¬ anchor <:+: t ∧ back = t ∧ e = .anchorMissing anchor) ∧
    (anchor <:+: t → ∃ out installed, h.attempt? anchor t = some ⟨out, .ok installed⟩ ∧
      (installed = true ↔ ¬ h.ident <:+: t) ∧
      (installed = false → out = t) ∧
      (installed = true → ∃ i place, place = i + anchor.length ∧ FirstAt anchor t i ∧
        out = t.take place ++ (h.definition ++ t.drop place) ∧
        out.take place ++ out.drop (place + h.definition.length) = t ∧ FirstAt anchor out i) ∧
      ∀ n, h.attempts? anchor n out = some ⟨out, .ok false⟩) := by
  refine ⟨fun back e => attempt?_eq_error_iff hanchor, fun ha => ?_⟩
  obtain ⟨out, installed, hattempt⟩ := exists_attempt?_eq_ok h hanchor ha
  have hdone : h.install anchor t = .ok (out, installed) := by
    rwa [attempt?_eq, handed?_eq_ok_iff] at hattempt
  refine ⟨out, installed, hattempt, installed_iff hident hdone, ?_, ?_, ?_⟩
  · rintro rfl
    obtain ⟨-, -, -, ⟨-, hout, -⟩ | ⟨htrue, -⟩⟩ := install_cases hdone
    · exact hout
    · cases htrue
  · rintro rfl
    exact inserted_of_install hanchor hdone
  · -- whether it was put in or not, the definition is there now
    obtain ⟨ha', hi'⟩ := infix_of_install hdefinition hdone
    exact attempts?_eq_self hanchor hident ha' hi'

/-- The anchor overlaps itself in the text, and the definition starts with an anchor of its own. -/
theorem attempt?_installs_once_overlapping :
    let h : Helper := ⟨"f", "ba", "aaba"⟩
    ("aa" : Text) ≠ [] ∧ h.ident ≠ [] ∧ h.ident <:+: h.definition ∧
      h.attempt? "aa" "xaaab" = some ⟨"xaaaabaab", .ok true⟩ ∧ ¬ h.ident <:+: "xaaab" ∧
      (∃ i, FirstAt "aa" "xaaab" i ∧ FirstAt "aa" "xaaaabaab" i) ∧
      ∀ n, h.attempts? "aa" n "xaaaabaab" = some ⟨"xaaaabaab", .ok false⟩ := by
  intro h
  have hanchor : ("aa" : Text) ≠ [] := by decide
  have hident : h.ident ≠ [] := by decide
  have hdefinition : h.ident <:+: h.definition := by decide
  have hrun : h.attempt? "aa" "xaaab" = some ⟨"xaaaabaab", .ok true⟩ := by decide
  obtain ⟨-, hfound⟩ := attempt?_installs_once h "aa" "xaaab" hanchor hident hdefinition
  obtain ⟨out, installed, hattempt, hiff, -, hput, hagain⟩ := hfound (by decide)
  obtain ⟨rfl, rfl⟩ : "xaaaabaab" = out ∧ true = installed := by
    simpa using hrun.symm.trans hattempt
  obtain ⟨i, -, -, hfirst, -, -, hfirst'⟩ := hput rfl
  exact ⟨hanchor, hident, hdefinition, hrun, hiff.1 rfl, ⟨i, hfirst, hfirst'⟩, hagain⟩

end Helper

end Reroute
