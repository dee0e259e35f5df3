import Mathlib.Data.List.Nodup
import Mathlib.Data.List.TakeWhile
import Reroute.Proofs.Preparation

/-!
# Spellings of a path

A clean path goes up some times and then down: it is a number of `..` and after them proper
components, or it starts at the root. What it means in a working directory is what it leaves of the
folders of that directory, with its own components behind them. So two clean paths mean the same
exactly if one of them leaves less and names the folders that are missing itself, as `/work/a` and
`../work/a` do in `/work`, where `a` leaves all folders.

A preparation compares the clean paths only. The files that it lists are different texts; their
absolute paths are different unless one of them spells out what another leaves unsaid.

## Main definitions

* `Path.ascent`, `Path.descent` — how often a path goes up, and where it goes down from there
* `Path.kept` — how many folders of the working directory a path leaves
* `Path.SpellsOut` — a path names folders that another leaves unsaid

## Main results

* `Path.clean_clean` — a clean path is its own clean path
* `Path.absolute_eq_resolve` — what a path means in a working directory
* `Path.absolute_eq_absolute_iff` — when two paths mean the same
* `Config.nodup_absolute_iff` — when the files of a configuration are different ones
-/

namespace Reroute

namespace Path

open Text (fields join)

variable {base fs cs rest w : List Text} {c p q cwd : Text} {k : Nat}

/-- The component that goes up. -/
def dots : Text := ".."

/-- How often a path goes up before it goes down. -/
def ascent (p : Text) : Nat := ((components p).takeWhile (· = dots)).length

/-- The components of a path after those that go up. -/
def descent (p : Text) : List Text := (components p).dropWhile (· = dots)

/-! ### Up and down -/

theorem follow_dots_cons (rooted : Bool) (h : Proper c) (rest : List Text) :
    follow rooted (c :: rest) dots = rest := by
  rw [follow.eq_def, if_neg (by decide), if_pos (by rfl)]
  exact if_neg h.ne_dots

/-- From the root on, going up takes away the last folder, if there is one. -/
theorem follow_true_dots (h : ∀ b ∈ base, Proper b) : follow true base dots = base.tail := by
  cases base with
  | nil => rfl
  | cons b base => exact follow_dots_cons true (h b List.mem_cons_self) base

/-- Where nothing can be taken back, going up is kept in mind. -/
theorem follow_false_dots (k : Nat) :
    follow false (List.replicate k dots) dots = List.replicate (k + 1) dots := by
  cases k with
  | zero => rfl
  | succ k =>
    rw [List.replicate_succ, follow.eq_def, if_neg (by decide), if_pos (by rfl)]
    exact if_pos rfl

/-- One more component, with nothing known about where the path starts and from a folder `base`: up
and down are the same in both. All lists have the last component first. -/
theorem exists_follow_eq (hbase : ∀ b ∈ base, Proper b) (hrest : ∀ r ∈ rest, Proper r)
    (hc : slash ∉ c) (k : Nat) :
    ∃ k' rest', (∀ r ∈ rest', Proper r) ∧
      follow false (rest ++ List.replicate k dots) c = rest' ++ List.replicate k' dots ∧
      follow true (rest ++ base.drop k) c = rest' ++ base.drop k' := by
  by_cases hskip : c = [] ∨ c = Text.ofString "."
  · refine ⟨k, rest, hrest, ?_, ?_⟩
    · rw [follow.eq_def, if_pos hskip]
    · rw [follow.eq_def, if_pos hskip]
  · by_cases hdots : c = dots
    · subst hdots
      cases rest with
      | nil =>
        -- nothing of the path itself can be taken back
        refine ⟨k + 1, [], by simp, follow_false_dots k, ?_⟩
        have hdrop : ∀ b ∈ base.drop k, Proper b := fun b hb => hbase b (List.mem_of_mem_drop hb)
        rw [List.nil_append, follow_true_dots hdrop, List.tail_drop, List.nil_append]
      | cons r rest =>
        obtain ⟨hr, hrest⟩ := List.forall_mem_cons.1 hrest
        exact ⟨k, rest, hrest, follow_dots_cons false hr _, follow_dots_cons true hr _⟩
    · rw [not_or] at hskip
      have hproper : Proper c := ⟨hskip.1, hskip.2, hdots, hc⟩
      exact ⟨k, c :: rest, List.forall_mem_cons.2 ⟨hproper, hrest⟩,
        follow_of_proper false _ hproper, follow_of_proper true _ hproper⟩

/-- A path goes up and down in the same way wherever it starts. -/
theorem exists_foldl_follow_eq (hbase : ∀ b ∈ base, Proper b) (hfs : ∀ f ∈ fs, slash ∉ f)
    (hrest : ∀ r ∈ rest, Proper r) (k : Nat) :
    ∃ k' rest', (∀ r ∈ rest', Proper r) ∧
      fs.foldl (follow false) (rest ++ List.replicate k dots) = rest' ++ List.replicate k' dots ∧
      fs.foldl (follow true) (rest ++ base.drop k) = rest' ++ base.drop k' := by
  -- what carries the induction is how often the path went up, and what it went down since
  induction fs generalizing rest k with
  | nil => exact ⟨k, rest, hrest, rfl, rfl⟩
  | cons f fs ih =>
    obtain ⟨hf, hfs⟩ := List.forall_mem_cons.1 hfs
    obtain ⟨k₁, rest₁, hrest₁, hfalse, htrue⟩ := exists_follow_eq hbase hrest hf k
    rw [List.foldl_cons, List.foldl_cons, hfalse, htrue]
    exact ih hfs hrest₁ k₁

/-- A path is made of the steps up and, after them, the way down. -/
theorem replicate_ascent_append_descent (p : Text) :
    List.replicate (ascent p) dots ++ descent p = components p := by
  have hup : (components p).takeWhile (· = dots) = List.replicate (ascent p) dots :=
    List.eq_replicate_iff.2 ⟨rfl, fun c hc => by simpa using List.mem_takeWhile_imp hc⟩
  rw [← hup, descent, List.takeWhile_append_dropWhile]

/-- Where the way down starts is seen from the components. -/
theorem ascent_descent_eq (h : components p = List.replicate k dots ++ rest)
    (hrest : ∀ r ∈ rest, Proper r) : ascent p = k ∧ descent p = rest := by
  have hup : ∀ c ∈ List.replicate k dots, decide (c = dots) = true := fun c hc =>
    decide_eq_true (List.eq_of_mem_replicate hc)
  have hdown : rest.takeWhile (· = dots) = [] ∧ rest.dropWhile (· = dots) = rest := by
    cases rest with
    | nil => exact ⟨rfl, rfl⟩
    | cons r rest =>
      have hr : ¬ decide (r = dots) = true := fun heq =>
        (hrest r List.mem_cons_self).ne_dots (of_decide_eq_true heq)
      exact ⟨List.takeWhile_cons_of_neg hr, List.dropWhile_cons_of_neg hr⟩
  -- the run of steps up ends where the way down starts, since no proper component goes up
  rw [ascent, descent, h, List.takeWhile_append_of_pos hup, List.dropWhile_append_of_pos hup,
    hdown.1, hdown.2]
  simp

/-- The way up and down from nowhere and from a folder, with the last component first. -/
theorem exists_of_relative (hp : isAbsolute p = false) (hbase : ∀ b ∈ base, Proper b) :
    (∀ r ∈ descent p, Proper r) ∧
      (fields slash p).foldl (follow true) base = (descent p).reverse ++ base.drop (ascent p) := by
  obtain ⟨k, rest, hrest, hfalse, htrue⟩ := exists_foldl_follow_eq hbase
    (fun f hf => Text.not_mem_of_mem_fields (t := p) hf) (List.forall_mem_nil Proper) 0
  have hcomponents : components p = List.replicate k dots ++ rest.reverse := by
    rw [components, hp]
    simpa using congrArg List.reverse hfalse
  have hproper : ∀ r ∈ rest.reverse, Proper r := fun r hr => hrest r (List.mem_reverse.1 hr)
  obtain ⟨hup, hdown⟩ := ascent_descent_eq hcomponents hproper
  rw [hup, hdown]
  exact ⟨hproper, by simpa using htrue⟩

theorem proper_of_mem_descent (p : Text) : ∀ r ∈ descent p, Proper r := by
  cases hp : isAbsolute p with
  | true => exact fun r hr => forall_proper_components hp r ((List.dropWhile_sublist _).mem hr)
  | false => exact (exists_of_relative hp (List.forall_mem_nil Proper)).1

/-- From the root on nothing goes up. -/
theorem ascent_of_absolute (h : isAbsolute p = true) : ascent p = 0 :=
  (ascent_descent_eq (by simp) (forall_proper_components h)).1

theorem descent_of_absolute (h : isAbsolute p = true) : descent p = components p :=
  (ascent_descent_eq (k := 0) (by simp) (forall_proper_components h)).2

/-! ### Clean paths -/

/-- A component that is kept goes up or is proper. -/
theorem cases_of_mem_components (h : c ∈ components p) : c = dots ∨ Proper c := by
  rw [← replicate_ascent_append_descent, List.mem_append] at h
  rcases h with hup | hdown
  · exact .inl (List.eq_of_mem_replicate hup)
  · exact .inr (proper_of_mem_descent p c hdown)

theorem slash_not_mem_of_mem_components (h : c ∈ components p) : slash ∉ c := by
  rcases cases_of_mem_components h with rfl | hproper
  · decide
  · exact hproper.no_slash

theorem ne_nil_of_mem_components (h : c ∈ components p) : c ≠ [] := by
  rcases cases_of_mem_components h with rfl | hproper
  · decide
  · exact hproper.ne_nil

/-- The components of a relative path are read back. -/
theorem foldl_follow_components (p : Text) :
    (components p).foldl (follow false) [] = (components p).reverse := by
  have hup : ∀ k, (List.replicate k dots).foldl (follow false) [] = List.replicate k dots := by
    intro k
    -- one more step up comes last, where the ones before are kept in mind already
    induction k with
    | zero => rfl
    | succ k ih =>
      rw [List.replicate_succ', List.foldl_append, ih]
      exact (follow_false_dots k).trans List.replicate_succ'
  rw [← replicate_ascent_append_descent, List.foldl_append, hup,
    foldl_follow_of_proper false (proper_of_mem_descent p), List.reverse_append,
    List.reverse_replicate]

theorem clean_of_relative (hp : isAbsolute p = false) :
    clean p = if components p = [] then Text.ofString "." else join [slash] (components p) := by
  rw [clean, hp]
  cases components p with
  | nil => rfl
  | cons first others => rfl

/-- The clean path of a relative path is relative. -/
theorem isAbsolute_clean_of_relative (hp : isAbsolute p = false) :
    isAbsolute (clean p) = false := by
  rw [clean_of_relative hp]
  split
  · decide
  · rename_i hne
    by_contra habsolute
    -- a slash at the start would be an empty first component
    obtain ⟨rest, hrest⟩ : ∃ rest, join [slash] (components p) = slash :: rest := by
      cases hjoin : join [slash] (components p) with
      | nil =>
        rw [hjoin] at habsolute
        exact absurd rfl habsolute
      | cons b rest =>
        rw [hjoin] at habsolute
        exact ⟨rest, by simpa [isAbsolute] using habsolute⟩
    have hfields := Text.fields_join hne fun c => slash_not_mem_of_mem_components (p := p)
    rw [hrest, fields, if_pos rfl] at hfields
    exact ne_nil_of_mem_components (p := p) (by rw [← hfields]; exact List.mem_cons_self) rfl

/-- A clean path starts where the path does and has its components. -/
theorem isAbsolute_clean_components_clean (p : Text) :
    isAbsolute (clean p) = isAbsolute p ∧ components (clean p) = components p := by
  cases hp : isAbsolute p with
  | true =>
    rw [clean_eq_ofComponents hp]
    exact ⟨isAbsolute_ofComponents _, components_ofComponents (forall_proper_components hp)⟩
  | false =>
    refine ⟨isAbsolute_clean_of_relative hp, ?_⟩
    rw [components, isAbsolute_clean_of_relative hp, clean_of_relative hp]
    split
    · rename_i hnil
      rw [hnil]
      decide
    · rename_i hne
      rw [Text.fields_join hne fun c => slash_not_mem_of_mem_components, foldl_follow_components,
        List.reverse_reverse]

/-- A clean path is known by where it starts and by its components. -/
theorem eq_of_clean (hp : clean p = p) (hq : clean q = q) (hroot : isAbsolute p = isAbsolute q)
    (hcomponents : components p = components q) : p = q := by
  rw [← hp, ← hq, clean, clean, hroot, hcomponents]

/-- A clean path is its own clean path. -/
theorem clean_clean (p : Text) : clean (clean p) = clean p := by
  obtain ⟨hroot, hcomponents⟩ := isAbsolute_clean_components_clean p
  rw [clean, hroot, hcomponents, clean]

/-! ### What a path means -/

/-- The number of folders of the working directory that a path leaves, counted from the root. -/
def kept (w : List Text) (p : Text) : Nat := if isAbsolute p then 0 else w.length - ascent p

/-- The components of what a path means in a working directory. -/
def resolve (w : List Text) (p : Text) : List Text := w.take (kept w p) ++ descent p

theorem proper_of_mem_resolve (hw : ∀ c ∈ w, Proper c) (p : Text) :
    ∀ c ∈ resolve w p, Proper c := by
  intro c hc
  rcases List.mem_append.1 hc with hkept | hdown
  · exact hw c (List.mem_of_mem_take hkept)
  · exact proper_of_mem_descent p c hdown

/-- What a path means is what it leaves of the working directory, with its way down behind it. -/
theorem absolute_eq_resolve (hcwd : isAbsolute cwd = true) (p : Text) :
    absolute cwd p = ofComponents (resolve (components cwd) p) := by
  rw [absolute]
  cases hp : isAbsolute p with
  | true =>
    rw [if_pos rfl, clean_eq_ofComponents hp, resolve, kept, hp, if_pos rfl, List.take_zero,
      List.nil_append, descent_of_absolute hp]
  | false =>
    have hroot := isAbsolute_append hcwd p
    have hbase : ∀ b ∈ (components cwd).reverse, Proper b := fun b hb =>
      forall_proper_components hcwd b (List.mem_reverse.1 hb)
    -- the path goes on from the folders of the working directory
    have hcomponents : components (cwd ++ slash :: p) = resolve (components cwd) p := by
      have hfold : (fields slash cwd).foldl (follow true) [] = (components cwd).reverse := by
        rw [components, hcwd, List.reverse_reverse]
      rw [components, hroot, Text.fields_append, List.foldl_append, hfold,
        (exists_of_relative hp hbase).2, List.reverse_append, List.reverse_reverse,
        List.reverse_drop, List.reverse_reverse, List.length_reverse, resolve, kept, hp]
      rfl
    rw [if_neg (by simp), below, clean_eq_ofComponents hroot, hcomponents]

/-- The path `q` names folders of the working directory that `p` leaves unsaid. -/
def SpellsOut (w : List Text) (p q : Text) : Prop :=
  kept w q ≤ kept w p ∧ descent q = (w.take (kept w p)).drop (kept w q) ++ descent p

instance (w : List Text) (p q : Text) : Decidable (SpellsOut w p q) :=
  inferInstanceAs (Decidable (_ ∧ _))

/-- The folders that `p` leaves are those that `q` leaves and those that are missing there. -/
private theorem take_kept_append (hle : kept w q ≤ kept w p) :
    w.take (kept w q) ++ (w.take (kept w p)).drop (kept w q) = w.take (kept w p) := by
  rw [← Nat.min_eq_left hle, ← List.take_take, Nat.min_eq_left hle, List.take_append_drop]

theorem SpellsOut.resolve_eq (h : SpellsOut w p q) : resolve w p = resolve w q := by
  rw [resolve, resolve, h.2, ← List.append_assoc, take_kept_append h.1]

theorem spellsOut_of_resolve_eq (hle : kept w q ≤ kept w p) (h : resolve w p = resolve w q) :
    SpellsOut w p q := by
  refine ⟨hle, ?_⟩
  rw [resolve, resolve, ← take_kept_append hle, List.append_assoc] at h
  exact (List.append_cancel_left h).symm

/-- Two paths mean the same exactly if one of them names what the other leaves unsaid. -/
theorem absolute_eq_absolute_iff (hcwd : isAbsolute cwd = true) :
    absolute cwd p = absolute cwd q ↔
      SpellsOut (components cwd) p q ∨ SpellsOut (components cwd) q p := by
  have hproper := proper_of_mem_resolve (forall_proper_components hcwd)
  rw [absolute_eq_resolve hcwd, absolute_eq_resolve hcwd]
  constructor
  · intro h
    have hresolve : resolve (components cwd) p = resolve (components cwd) q := by
      rw [← components_ofComponents (hproper p), h, components_ofComponents (hproper q)]
    rcases Nat.le_total (kept (components cwd) q) (kept (components cwd) p) with hle | hle
    · exact .inl (spellsOut_of_resolve_eq hle hresolve)
    · exact .inr (spellsOut_of_resolve_eq hle hresolve.symm)
  · rintro (h | h)
    · rw [h.resolve_eq]
    · rw [h.resolve_eq]

/-- Clean paths that start at the root, or go up equally often, spell out nothing of each other. -/
theorem SpellsOut.eq (h : SpellsOut w p q) (hp : clean p = p) (hq : clean q = q)
    (hroot : isAbsolute p = isAbsolute q) (hup : ascent p = ascent q) : p = q := by
  have hkept : kept w p = kept w q := by rw [kept, kept, hroot, hup]
  have hdown : descent q = descent p := by
    rw [h.2, hkept, List.drop_take_self, List.nil_append]
  refine eq_of_clean hp hq hroot ?_
  rw [← replicate_ascent_append_descent p, hup, ← hdown, replicate_ascent_append_descent]

end Path

namespace Config

variable {σ : Type} {h : Handler diskInterface σ} {s s' : σ} {c c' : Config} {cwd : Text}

theorem clean_of_mem_listed {files p : Text} (h : p ∈ listed files) : Path.clean p = p := by
  obtain ⟨f, -, rfl⟩ := List.mem_map.1 h
  exact Path.clean_clean f

/-- The files of a configuration that was prepared are different as texts. They are different files
exactly if none of them spells out what another leaves unsaid, in particular if all of them start at
the root, or if none does and all go up equally often. -/
theorem nodup_absolute_iff (hcwd : Path.isAbsolute cwd = true) (hfresh : c.Fresh)
    (hrun : c.prepare.run h s = ((.ok (), c'), s')) :
    c'.targets = listed c.files ∧ c'.targets.Nodup ∧
      ((c'.targets.map (Path.absolute cwd)).Nodup ↔
        ∀ p ∈ c'.targets, ∀ q ∈ c'.targets, p ≠ q →
          ¬ Path.SpellsOut (Path.components cwd) p q) ∧
      (((∀ p ∈ c'.targets, Path.isAbsolute p = true) ∨
          ∃ k, ∀ p ∈ c'.targets, Path.isAbsolute p = false ∧ Path.ascent p = k) →
        (c'.targets.map (Path.absolute cwd)).Nodup) := by
  obtain ⟨htargets, hnodup⟩ := targets_of_prepare hrun
  rw [hfresh.targets, List.nil_append] at htargets
  have hiff : (c'.targets.map (Path.absolute cwd)).Nodup ↔
      ∀ p ∈ c'.targets, ∀ q ∈ c'.targets, p ≠ q →
        ¬ Path.SpellsOut (Path.components cwd) p q := by
    rw [List.nodup_map_iff_inj_on hnodup]
    constructor
    · intro hinj p hp q hq hne hspells
      exact hne (hinj p hp q hq ((Path.absolute_eq_absolute_iff hcwd).2 (.inl hspells)))
    · intro hnone p hp q hq heq
      by_contra hne
      rcases (Path.absolute_eq_absolute_iff hcwd).1 heq with hspells | hspells
      · exact hnone p hp q hq hne hspells
      · exact hnone q hq p hp (Ne.symm hne) hspells
  refine ⟨htargets, hnodup, hiff, fun halike => hiff.2 fun p hp q hq hne hspells => hne ?_⟩
  have hclean : ∀ r ∈ c'.targets, Path.clean r = r := fun r hr =>
    clean_of_mem_listed (htargets ▸ hr)
  refine hspells.eq (hclean p hp) (hclean q hq) ?_ ?_
  · rcases halike with hroot | ⟨k, hrelative⟩
    · rw [hroot p hp, hroot q hq]
    · rw [(hrelative p hp).1, (hrelative q hq).1]
  · rcases halike with hroot | ⟨k, hrelative⟩
    · rw [Path.ascent_of_absolute (hroot p hp), Path.ascent_of_absolute (hroot q hq)]
    · rw [(hrelative p hp).2, (hrelative q hq).2]

/-- Three files, one below the working directory, one above it and one from the root on. -/
theorem nodup_absolute_iff_three :
    let c := { blank with files := "./a.rs, ../b.rs,/work/c.rs" }
    let d := (((Disk.fresh "/work").put "a.rs" 0o644 []).put "/b.rs" 0o644 []).put "c.rs" 0o644 []
    ∃ c', c.Fresh ∧ (∃ d', c.prepare.run Disk.perform d = ((.ok (), c'), d')) ∧
      (c'.targets.map (Path.absolute "/work")).Nodup := by
  intro c d
  have hfresh : c.Fresh := ⟨rfl, rfl, rfl⟩
  have hwork : Path.isAbsolute "/work" = true := by decide
  have hok : (c.prepare.run Disk.perform d).1.1.isOk = true := by decide +kernel
  obtain ⟨c', d', hrun⟩ := exists_prepare_eq hok
  obtain ⟨htargets, -, hiff, -⟩ := nodup_absolute_iff hwork hfresh hrun
  refine ⟨c', hfresh, ⟨d', hrun⟩, hiff.2 ?_⟩
  rw [htargets]
  decide +kernel

/-- A file that is listed under its name and under its absolute path is taken for two files. -/
theorem nodup_absolute_fails :
    let c := { blank with files := "a.rs,/work/a.rs" }
    let d := (Disk.fresh "/work").put "a.rs" 0o644 []
    let prepared := (c.prepare.run Disk.perform d).1
    c.Fresh ∧ prepared.1.isOk = true ∧
      ¬ (prepared.2.targets.map (Path.absolute "/work")).Nodup :=
  ⟨⟨rfl, rfl, rfl⟩, by decide +kernel, by decide +kernel⟩

end Config

end Reroute
