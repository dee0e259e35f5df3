import Reroute.PatchError

/-!
# The helper

The helper is the function that rerouted calls go through. Its definition is installed in a text
directly after an anchor line, once: a fragment that only its definition contains tells that it is
there already.

## Main definitions

* `Helper` — the function and the mark of its presence
* `Helper.install` — a text with the helper's definition

## Main results

* `Helper.install_cases` — what an installation that succeeds has done
-/

namespace Reroute

/-- The function that rerouted calls go through. -/
structure Helper where
  /-- The name by which calls reach it. -/
  name : Text
  /-- A fragment of the definition that a text without the helper does not contain. -/
  ident : Text
  /-- The definition, with the blank lines around it. -/
  definition : Text
deriving DecidableEq, Repr, Inhabited

namespace Helper

/-- Puts the definition behind the first occurrence of the anchor, unless the text has the helper
already. The flag tells whether the definition was put in. An empty anchor is never found. -/
def install (h : Helper) (anchor t : Text) : Except PatchError (Text × Bool) :=
  match if anchor.isEmpty then none else t.cut? anchor with
  | none => .error (.anchorMissing anchor)
  | some (before, after) =>
    if !h.ident.isEmpty && t.includes h.ident then .ok (t, false)
    else .ok (before ++ anchor ++ h.definition ++ after, true)

/-- An installation that succeeds has found the anchor. It leaves the text alone, or it has put the
definition behind the anchor. -/
theorem install_cases {h : Helper} {anchor t start : Text} {installed : Bool}
    (hinstall : h.install anchor t = .ok (start, installed)) :
    ∃ before after, t.cut? anchor = some (before, after) ∧
      (installed = false ∧ start = t ∧ t.includes h.ident = true ∨
        installed = true ∧ start = before ++ (anchor ++ (h.definition ++ after)) ∧
          (h.ident = [] ∨ t.includes h.ident = false)) := by
  rw [install] at hinstall
  split at hinstall
  · cases hinstall
  rename_i before after hfound
  have hcut : t.cut? anchor = some (before, after) := by
    split at hfound
    · cases hfound
    · exact hfound
  refine ⟨before, after, hcut, ?_⟩
  split at hinstall
  · rename_i hhere
    cases hinstall
    exact .inl ⟨rfl, rfl, (Bool.and_eq_true_iff.1 hhere).2⟩
  · rename_i hmissing
    cases hinstall
    refine .inr ⟨rfl, by simp, ?_⟩
    cases hident : h.ident with
    | nil => exact .inl rfl
    | cons b rest =>
      rw [hident] at hmissing
      exact .inr (by simpa using hmissing)

end Helper

end Reroute
