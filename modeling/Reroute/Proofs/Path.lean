import Reroute.Disk.Path
import Reroute.Proofs.Text.Occurrence

/-!
# Clean paths

A clean path from the root is a slash and its components with slashes between them. Its components
are proper: none is empty, none is `.` or `..`, and none has a slash. So a clean path is read back
component by component, and cleaning it again changes nothing. The absolute path of any path is of
this kind if the working directory is absolute.

## Main definitions

* `Path.Proper` — the components that clean paths from the root are made of
* `Path.IsClean` — clean paths from the root

## Main results

* `Text.fields_join` — fields without the separator are read back
* `Path.components_ofComponents` — proper components are read back
* `Path.absolute_eq_ofComponents` — an absolute path is the one of its proper components
* `Path.absolute_absolute` — an absolute path is its own absolute path
-/

namespace Reroute

open Text

/-! ### Fields -/

namespace Text

variable {sep : UInt8} {t f : Text}

theorem fields_ne_nil (sep : UInt8) (t : Text) : fields sep t ≠ [] := by
  cases t with
  | nil => simp [fields]
  | cons b rest =>
    rw [fields]
    split
    · simp
    · split <;> simp

/-- No field has the separator. -/
theorem not_mem_of_mem_fields (h : f ∈ fields sep t) : sep ∉ f := by
  induction t generalizing f with
  | nil =>
    rw [fields, List.mem_singleton] at h
    simp [h]
  | cons b rest ih =>
    rw [fields] at h
    split at h
    · rcases List.mem_cons.1 h with rfl | hrest
      · simp
      · exact ih hrest
    · rename_i hb
      split at h
      · rename_i hnil
        exact absurd hnil (fields_ne_nil sep rest)
      · rename_i l ls hls
        -- the byte belongs to the first field of the rest
        rcases List.mem_cons.1 h with rfl | hmem
        · have hl : sep ∉ l := ih (by rw [hls]; exact List.mem_cons_self)
          simp [hl, Ne.symm hb]
        · exact ih (by rw [hls]; exact List.mem_cons_of_mem l hmem)

theorem fields_of_not_mem (h : sep ∉ f) : fields sep f = [f] := by
  induction f with
  | nil => rfl
  | cons b rest ih =>
    rw [List.mem_cons, not_or] at h
    rw [fields, if_neg (Ne.symm h.1), ih h.2]

theorem fields_append_cons (h : sep ∉ f) (rest : Text) :
    fields sep (f ++ sep :: rest) = f :: fields sep rest := by
  induction f with
  | nil => simp [fields]
  | cons b f ih =>
    rw [List.mem_cons, not_or] at h
    rw [List.cons_append, fields, if_neg (Ne.symm h.1), ih h.2]

/-- Fields without the separator are read back. -/
theorem fields_join {ps : List Text} (hne : ps ≠ []) (h : ∀ p ∈ ps, sep ∉ p) :
    fields sep (join [sep] ps) = ps := by
  induction ps with
  | nil => exact absurd rfl hne
  | cons p ps ih =>
    obtain ⟨hp, hps⟩ := List.forall_mem_cons.1 h
    by_cases hnil : ps = []
    · rw [hnil, join_singleton, fields_of_not_mem hp]
    · rw [join_cons [sep] p hnil, List.singleton_append, fields_append_cons hp, ih hnil hps]

end Text

namespace Path

/-! ### Proper components -/

/-- A component that says where to go on: not empty, neither `.` nor `..`, and without a slash. -/
structure Proper (component : Text) : Prop where
  ne_nil : component ≠ []
  ne_dot : component ≠ "."
  ne_dots : component ≠ ".."
  no_slash : slash ∉ component

variable {cs kept : List Text} {c p cwd : Text}

theorem follow_of_proper (rooted : Bool) (kept : List Text) (h : Proper c) :
    follow rooted kept c = c :: kept := by
  rw [follow.eq_def, if_neg (not_or.2 ⟨h.ne_nil, h.ne_dot⟩), if_neg h.ne_dots]

theorem foldl_follow_of_proper (rooted : Bool) (h : ∀ c ∈ cs, Proper c) :
    cs.foldl (follow rooted) kept = cs.reverse ++ kept := by
  induction cs generalizing kept with
  | nil => rfl
  | cons c cs ih =>
    obtain ⟨hc, hcs⟩ := List.forall_mem_cons.1 h
    rw [List.foldl_cons, follow_of_proper rooted kept hc, ih hcs]
    simp

/-- From the root on only proper components are kept. -/
theorem forall_proper_follow (h : ∀ k ∈ kept, Proper k) (hc : slash ∉ c) :
    ∀ k ∈ follow true kept c, Proper k := by
  rw [follow.eq_def]
  split
  · exact h
  · rename_i hskip
    rw [not_or] at hskip
    split
    · -- `..` takes back what was kept last, which is not `..` itself
      cases kept with
      | nil => simp
      | cons last before =>
        obtain ⟨hlast, hbefore⟩ := List.forall_mem_cons.1 h
        rename_i hdots
        have hne : last ≠ c := fun heq => hlast.ne_dots (heq.trans hdots)
        simp only [if_neg hne]
        exact hbefore
    · rename_i hdots
      exact List.forall_mem_cons.2 ⟨⟨hskip.1, hskip.2, hdots, hc⟩, h⟩

theorem forall_proper_components (h : isAbsolute p = true) : ∀ c ∈ components p, Proper c := by
  have hfold : ∀ fs : List Text, (∀ f ∈ fs, slash ∉ f) → ∀ kept : List Text,
      (∀ k ∈ kept, Proper k) → ∀ k ∈ fs.foldl (follow true) kept, Proper k := by
    intro fs
    induction fs with
    | nil => exact fun _ _ hkept => hkept
    | cons f fs ih =>
      intro hfs kept hkept
      obtain ⟨hf, hrest⟩ := List.forall_mem_cons.1 hfs
      exact ih hrest _ (forall_proper_follow hkept hf)
  intro c hc
  rw [components, h, List.mem_reverse] at hc
  exact hfold _ (fun f hf => not_mem_of_mem_fields hf) [] (by simp) c hc

/-! ### Clean paths from the root -/

@[simp] theorem isAbsolute_ofComponents (cs : List Text) : isAbsolute (ofComponents cs) = true := by
  simp [isAbsolute, ofComponents]

/-- Proper components are read back. -/
theorem components_ofComponents (h : ∀ c ∈ cs, Proper c) : components (ofComponents cs) = cs := by
  have hroot : fields slash (ofComponents cs) = [] :: fields slash (join [slash] cs) := by
    rw [ofComponents, fields, if_pos rfl]
  have hskip : ∀ rooted kept, follow rooted kept [] = kept := by
    intro rooted kept
    rw [follow.eq_def, if_pos (.inl rfl)]
  rw [components, hroot, isAbsolute_ofComponents, List.foldl_cons, hskip]
  by_cases hnil : cs = []
  · subst hnil
    rfl
  · rw [fields_join hnil fun c hc => (h c hc).no_slash, foldl_follow_of_proper true h]
    simp

theorem clean_eq_ofComponents (h : isAbsolute p = true) :
    clean p = ofComponents (components p) := by
  rw [clean, if_pos h]

/-- Below an absolute folder, a path starts with a slash too. -/
theorem isAbsolute_append (h : isAbsolute cwd = true) (p : Text) :
    isAbsolute (cwd ++ slash :: p) = true := by
  cases cwd with
  | nil => cases h
  | cons b rest => simpa [isAbsolute] using h

/-- An absolute path is the clean path of its proper components. -/
theorem absolute_eq_ofComponents (hcwd : isAbsolute cwd = true) (p : Text) :
    ∃ cs, (∀ c ∈ cs, Proper c) ∧ absolute cwd p = ofComponents cs := by
  rw [absolute]
  split
  · rename_i h
    exact ⟨_, forall_proper_components h, clean_eq_ofComponents h⟩
  · have h := isAbsolute_append hcwd p
    exact ⟨_, forall_proper_components h, clean_eq_ofComponents h⟩

/-- The clean path of proper components is its own absolute path. -/
theorem absolute_ofComponents (cwd : Text) (h : ∀ c ∈ cs, Proper c) :
    absolute cwd (ofComponents cs) = ofComponents cs := by
  rw [absolute, if_pos (isAbsolute_ofComponents cs),
    clean_eq_ofComponents (isAbsolute_ofComponents cs), components_ofComponents h]

/-- An absolute path is its own absolute path. -/
theorem absolute_absolute (hcwd : isAbsolute cwd = true) (p : Text) :
    absolute cwd (absolute cwd p) = absolute cwd p := by
  obtain ⟨cs, hcs, heq⟩ := absolute_eq_ofComponents hcwd p
  rw [heq, absolute_ofComponents cwd hcs]

/-- A clean path from the root. -/
def IsClean (p : Text) : Prop := isAbsolute p = true ∧ clean p = p

instance : DecidablePred IsClean := fun p =>
  inferInstanceAs (Decidable (isAbsolute p = true ∧ clean p = p))

theorem IsClean.ofComponents_components (h : IsClean p) : ofComponents (components p) = p := by
  rw [← clean_eq_ofComponents h.1, h.2]

theorem IsClean.proper (h : IsClean p) : ∀ c ∈ components p, Proper c :=
  forall_proper_components h.1

/-- Clean paths with the same components are the same. -/
theorem IsClean.eq_of_components {q : Text} (hp : IsClean p) (hq : IsClean q)
    (h : components p = components q) : p = q := by
  rw [← hp.ofComponents_components, h, hq.ofComponents_components]

/-- A path that is its own absolute path is clean. -/
theorem isClean_of_absolute (hcwd : isAbsolute cwd = true) (h : absolute cwd p = p) :
    IsClean p := by
  obtain ⟨cs, hcs, heq⟩ := absolute_eq_ofComponents hcwd p
  rw [h] at heq
  rw [heq]
  refine ⟨isAbsolute_ofComponents cs, ?_⟩
  rw [clean_eq_ofComponents (isAbsolute_ofComponents cs), components_ofComponents hcs]

end Path

end Reroute
