import Mathlib.Data.List.Nodup
import Reroute.Config
import Reroute.Proofs.Disk.Files

/-!
# Preparing a configuration

A preparation that succeeds has listed the files, and no path is listed twice. One that fails has
listed them all the same, and they stay in the configuration. So the next attempt finds every file
listed at least twice: it stops where an untouched configuration would stop while its files are
checked, and otherwise it complains that files are listed more than once, whatever has been mended
in the meantime. An attempt that fails only because there is no working directory leaves its profile
too, and the next one keeps it unless it finds one itself.

## Main definitions

* `Config.Fresh` — configurations that no attempt has touched
* `Config.Attempts` — what failed attempts leave of a configuration

## Main results

* `Config.prepare_cases` — what one attempt comes to
* `Config.targets_of_prepare` — what a successful preparation has listed
* `Config.Attempts.exists_eq` — failed attempts leave nothing but the files, once for each attempt,
  and perhaps a profile
* `Config.prepare_again_agrees_iff` — when another attempt is like the first one
-/

namespace Reroute

open Disk (perform)

namespace Config

variable {σ : Type} {h : Handler diskInterface σ} {s s' : σ} {c c' : Config}

/-! ### One attempt -/

/-- The folder of the archive is found, or there is no working directory to start from. -/
theorem run_resolveArchive_cases (c : Config) (h : Handler diskInterface σ) (s : σ) :
    (∃ cause, (c.resolveArchive.run h s).1 = .error (.archiveUnresolved cause)) ∨
      ∃ archive, (c.resolveArchive.run h s).1 = .ok archive := by
  rw [resolveArchive]
  split
  · exact .inr ⟨_, rfl⟩
  · split
    · exact .inr ⟨_, rfl⟩
    · rw [Job.run_monad_bind, DiskOp.run_perform]
      cases (h .workingDirectory s).1 with
      | error e => exact .inl ⟨e, rfl⟩
      | ok cwd => exact .inr ⟨_, rfl⟩

/-- An attempt lists the files. Then it fails with them listed, or it finds a profile; after that it
only fails if it does not find out where the archive is. -/
theorem prepare_cases (hprepared : c.prepared = false) (h : Handler diskInterface σ) (s : σ) :
    (∃ e, (c.withTargets.examine.run h s).1 = .error e ∧
      (c.prepare.run h s).1 = (.error e, c.withTargets)) ∨
    ∃ p, (c.withTargets.examine.run h s).1 = .ok p ∧
      ((∃ cause, (c.prepare.run h s).1 =
          (.error (.archiveUnresolved cause), c.withTargets.withProfile p)) ∨
        ∃ archive, (c.prepare.run h s).1 =
          (.ok (), (c.withTargets.withProfile p).settled archive)) := by
  rw [prepare, hprepared]
  simp only [Bool.false_eq_true, if_false]
  rw [Job.run_monad_bind]
  cases (c.withTargets.examine.run h s).1 with
  | error e => exact .inl ⟨e, rfl, rfl⟩
  | ok p =>
    refine .inr ⟨p, rfl, ?_⟩
    simp only [Job.run_monad_bind]
    rcases run_resolveArchive_cases c h (c.withTargets.examine.run h s).2 with
      ⟨cause, hcause⟩ | ⟨archive, harchive⟩
    · rw [hcause]
      exact .inl ⟨cause, rfl⟩
    · rw [harchive]
      exact .inr ⟨archive, rfl⟩

/-- An attempt fails if something is wrong with the configuration once its files are listed. -/
theorem fst_prepare_of_error {e : ConfigError} (hprepared : c.prepared = false)
    (herror : (c.withTargets.examine.run h s).1 = .error e) :
    (c.prepare.run h s).1.1 = .error e := by
  rcases prepare_cases hprepared h s with ⟨e', hexamine, heq⟩ | ⟨p, hexamine, -⟩
  · rw [herror] at hexamine
    cases hexamine
    rw [heq]
  · rw [herror] at hexamine
    cases hexamine

/-- An attempt lists the files, whether it succeeds or not. -/
theorem targets_prepare (hprepared : c.prepared = false) (h : Handler diskInterface σ) (s : σ) :
    (c.prepare.run h s).1.2.targets = c.targets ++ listed c.files := by
  rcases prepare_cases hprepared h s with ⟨e, -, heq⟩ | ⟨p, -, ⟨cause, heq⟩ | ⟨archive, heq⟩⟩ <;>
    rw [heq] <;> rfl

/-- An attempt that does not fail leaves a prepared configuration. -/
theorem exists_prepare_eq (hok : (c.prepare.run h s).1.1.isOk = true) :
    ∃ c' s', c.prepare.run h s = ((.ok (), c'), s') := by
  cases hanswer : (c.prepare.run h s).1.1 with
  | error e =>
    rw [hanswer] at hok
    cases hok
  | ok u => exact ⟨_, _, Prod.ext (Prod.ext hanswer rfl) rfl⟩

theorem prepared_of_prepare (hrun : c.prepare.run h s = ((.ok (), c'), s')) :
    c.prepared = false := by
  cases hprepared : c.prepared with
  | false => rfl
  | true =>
    rw [prepare, hprepared] at hrun
    cases hrun

/-- Files are examined with success only if none is listed twice. -/
theorem nodup_of_examine {p : Profile} (hrun : (c.examine.run h s).1 = .ok p) :
    c.targets.Nodup := by
  by_contra hrepeated
  rw [examine] at hrun
  split at hrun
  · cases hrun
  · rw [Job.run_monad_bind] at hrun
    cases hchecked : ((checkTargets c.restoring c.targets).run h s).1 with
    | error e =>
      rw [hchecked] at hrun
      cases hrun
    | ok u =>
      rw [hchecked] at hrun
      simp only at hrun
      cases hrun

/-- A successful preparation has listed the files, each of them once. -/
theorem targets_of_prepare (hrun : c.prepare.run h s = ((.ok (), c'), s')) :
    c'.targets = c.targets ++ listed c.files ∧ c'.targets.Nodup := by
  rcases prepare_cases (prepared_of_prepare hrun) h s with
    ⟨e, -, hfailed⟩ | ⟨p, hexamine, ⟨cause, hfailed⟩ | ⟨archive, hsettled⟩⟩
  · rw [hrun] at hfailed
    cases hfailed
  · rw [hrun] at hfailed
    cases hfailed
  · rw [hrun] at hsettled
    obtain rfl : c' = (c.withTargets.withProfile p).settled archive := (Prod.mk.inj hsettled).2
    exact ⟨rfl, nodup_of_examine hexamine⟩

/-! ### Checking files on a disk -/

section Check

variable {d : Disk} {restoring : Bool} {path : Text} {paths others : List Text} {e : ConfigError}

/-- Checking a file leaves the disk. -/
theorem run_checkTarget (restoring : Bool) (path : Text) (d : Disk) :
    (checkTarget restoring path).run perform d =
      (((checkTarget restoring path).run perform d).1, d) := by
  rw [checkTarget, Job.run_monad_bind, DiskOp.run_perform, perform]
  cases d.find path with
  | error fault =>
    simp only [Disk.refuse]
    split <;> rfl
  | ok found =>
    obtain ⟨place, node⟩ := found
    cases node <;> rfl

theorem run_checkTargets_cons (restoring : Bool) (path : Text) (paths : List Text) (d : Disk) :
    ((checkTargets restoring (path :: paths)).run perform d).1 =
      ((checkTarget restoring path).run perform d).1.bind fun _ =>
        ((checkTargets restoring paths).run perform d).1 := by
  rw [checkTargets, Job.run_monad_bind, run_checkTarget]
  cases ((checkTarget restoring path).run perform d).1 <;> rfl

/-- The first file that fails the check counts, whatever follows. -/
theorem run_checkTargets_append_of_error
    (herror : ((checkTargets restoring paths).run perform d).1 = .error e) (others : List Text) :
    ((checkTargets restoring (paths ++ others)).run perform d).1 = .error e := by
  induction paths with
  | nil => cases herror
  | cons path paths ih =>
    rw [List.cons_append, run_checkTargets_cons]
    rw [run_checkTargets_cons] at herror
    cases hpath : ((checkTarget restoring path).run perform d).1 with
    | error e' =>
      rw [hpath] at herror
      exact herror
    | ok u =>
      rw [hpath] at herror
      exact ih herror

theorem run_checkTargets_eq_ok_iff :
    ((checkTargets restoring paths).run perform d).1 = .ok () ↔
      ∀ path ∈ paths, ((checkTarget restoring path).run perform d).1 = .ok () := by
  induction paths with
  | nil => exact iff_of_true rfl (List.forall_mem_nil _)
  | cons path paths ih =>
    rw [run_checkTargets_cons, List.forall_mem_cons, ← ih]
    cases ((checkTarget restoring path).run perform d).1 with
    | error e => exact iff_of_false (by rintro ⟨⟩) (by rintro ⟨⟨⟩, -⟩)
    | ok u => exact (and_iff_right rfl).symm

/-- An examination stops at the first file that fails the check. -/
theorem run_examine_of_error (hne : c.targets ≠ [])
    (herror : ((checkTargets c.restoring c.targets).run perform d).1 = .error e) :
    (c.examine.run perform d).1 = .error e := by
  have hempty : c.targets.isEmpty = false := List.isEmpty_eq_false_iff.2 hne
  rw [examine, hempty]
  simp only [Bool.false_and, Bool.false_eq_true, if_false]
  rw [Job.run_monad_bind, herror]
  rfl

/-- An examination stops at a file that is listed twice, if all files pass the check. -/
theorem run_examine_of_repeated (hne : c.targets ≠ []) (hrepeated : ¬ c.targets.Nodup)
    (hok : ((checkTargets c.restoring c.targets).run perform d).1 = .ok ()) :
    (c.examine.run perform d).1 = .error .repeatedTarget := by
  have hempty : c.targets.isEmpty = false := List.isEmpty_eq_false_iff.2 hne
  rw [examine, hempty]
  simp only [Bool.false_and, Bool.false_eq_true, if_false]
  rw [Job.run_monad_bind, hok]
  simp only [if_pos hrepeated]
  rfl

end Check

/-! ### Attempts that fail -/

theorem checkTargets_ne_archiveUnresolved (restoring : Bool) (paths : List Text)
    (h : Handler diskInterface σ) (s : σ) (cause : DiskError) :
    ((checkTargets restoring paths).run h s).1 ≠ .error (.archiveUnresolved cause) := by
  induction paths generalizing s with
  | nil => rintro ⟨⟩
  | cons path paths ih =>
    rw [checkTargets, Job.run_monad_bind, checkTarget, Job.run_monad_bind, DiskOp.run_perform]
    rcases h (.stat path) s with ⟨e | info, s₁⟩
    · by_cases hmissing : (restoring && e.fault = .notFound) = true
      · simp only [hmissing, if_true]
        exact ih s₁
      · simp only [hmissing]
        rintro ⟨⟩
    · by_cases hfolder : info.isFolder = true
      · simp only [hfolder, if_true]
        rintro ⟨⟩
      · simp only [hfolder]
        exact ih s₁

/-- Only the last step of an attempt asks where the archive is. -/
theorem examine_ne_archiveUnresolved (c : Config) (h : Handler diskInterface σ) (s : σ)
    (cause : DiskError) : (c.examine.run h s).1 ≠ .error (.archiveUnresolved cause) := by
  have hchecked := checkTargets_ne_archiveUnresolved c.restoring c.targets h s cause
  rw [examine]
  split
  · rintro ⟨⟩
  · rw [Job.run_monad_bind]
    cases hcheck : ((checkTargets c.restoring c.targets).run h s).1 with
    | error e =>
      rw [hcheck] at hchecked
      rintro ⟨⟩
      exact hchecked rfl
    | ok u =>
      simp only
      split
      · rintro ⟨⟩
      · split
        · rintro ⟨⟩
        · rw [loadProfile]
          split
          · rintro ⟨⟩
          · rw [Job.run_monad_bind]
            cases (Job.run h (Profile.load c.profileFile) _).1 <;> rintro ⟨⟩

/-- A configuration that no attempt has touched. -/
structure Fresh (c : Config) : Prop where
  targets : c.targets = []
  profile? : c.profile? = none
  prepared : c.prepared = false

/-- What failed attempts with the given errors, the last one first, leave of a configuration. The
disk may change between them. -/
inductive Attempts (c : Config) : List ConfigError → Config → Prop
  | start : Attempts c [] c
  | fail {errors : List ConfigError} {c₁ c₂ : Config} {d : Disk} {e : ConfigError}
    (before : Attempts c errors c₁) (run : (c₁.prepare.run perform d).1 = (.error e, c₂)) :
    Attempts c (e :: errors) c₂

/-- A configuration with its files listed a number of times and with a profile from before. -/
def worn (c : Config) (n : Nat) (stale : Option Profile) : Config :=
  { c with
    targets := c.targets ++ (List.replicate n (listed c.files)).flatten
    profile? := stale }

theorem withTargets_worn (c : Config) (n : Nat) (stale : Option Profile) :
    (c.worn n stale).withTargets = c.worn (n + 1) stale := by
  simp [worn, withTargets, List.replicate_succ', List.append_assoc]

/-- Failed attempts leave the files, once for each attempt, and a profile exactly if one of them
found everything but where the archive is. -/
theorem Attempts.exists_eq (hfresh : c.Fresh) {errors : List ConfigError}
    (h : Attempts c errors c') :
    ∃ stale, c' = c.worn errors.length stale ∧
      (stale = none ↔ ∀ cause, .archiveUnresolved cause ∉ errors) := by
  induction h with
  | start =>
    refine ⟨none, ?_, iff_of_true rfl fun cause => List.not_mem_nil⟩
    rw [← hfresh.profile?]
    simp [worn]
  | @fail errors c₁ c₂ d e _ hfailed ih =>
    obtain ⟨stale, rfl, hstale⟩ := ih
    rcases prepare_cases (c := c.worn errors.length stale) hfresh.prepared perform d with
      ⟨e', hexamine, heq⟩ | ⟨p, -, ⟨cause, heq⟩ | ⟨archive, heq⟩⟩
    · -- an attempt that finds no profile lists the files once more and writes no other field
      rw [heq, withTargets_worn] at hfailed
      obtain ⟨herror, rfl⟩ := Prod.mk.inj hfailed
      obtain rfl := Except.error.inj herror
      refine ⟨stale, rfl, hstale.trans (forall_congr' fun cause => ?_)⟩
      have hne : ConfigError.archiveUnresolved cause ≠ e' := fun hcause =>
        examine_ne_archiveUnresolved _ perform d cause (hexamine.trans (hcause ▸ rfl))
      rw [List.mem_cons, not_or, and_iff_right hne]
    · rw [heq, withTargets_worn] at hfailed
      obtain ⟨herror, rfl⟩ := Prod.mk.inj hfailed
      obtain rfl := Except.error.inj herror
      exact ⟨some p, rfl, iff_of_false (by rintro ⟨⟩) fun hnone => hnone cause (.head _)⟩
    · rw [heq] at hfailed
      cases hfailed

/-- One more attempt that fails. -/
theorem Attempts.next {errors : List ConfigError} {d : Disk} (h : Attempts c errors c')
    (hfails : (c'.prepare.run perform d).1.1.isOk = false) :
    ∃ e, (c'.prepare.run perform d).1.1 = .error e ∧
      Attempts c (e :: errors) (c'.prepare.run perform d).1.2 := by
  cases hanswer : (c'.prepare.run perform d).1.1 with
  | error e => exact ⟨e, rfl, h.fail (Prod.ext hanswer rfl)⟩
  | ok u =>
    rw [hanswer] at hfails
    cases hfails

/-! ### Another attempt -/

theorem worn_of_nil (hnil : listed c.files = []) (n : Nat) (stale : Option Profile) :
    c.worn n stale = { c with profile? := stale } := by
  simp [worn, hnil]

/-- What a preparation finds does not depend on the profile that is there. If it finds a profile
itself, the configuration after it does not depend on it either. -/
theorem prepare_stale (hfresh : c.Fresh) (stale : Option Profile) (d : Disk) :
    let again := (({ c with profile? := stale } : Config).prepare.run perform d).1
    let anew := (c.prepare.run perform d).1
    again.1 = anew.1 ∧ again.2 = { anew.2 with profile? := anew.2.profile?.or stale } := by
  have hlisted : ({ c with profile? := stale } : Config).withTargets =
    { c.withTargets with profile? := c.withTargets.profile?.or stale } := by
    rw [withTargets, withTargets, hfresh.profile?, Option.none_or]
  have hprepared : ({ c with profile? := stale } : Config).prepared = false := hfresh.prepared
  have hexamine : ({ c with profile? := stale } : Config).withTargets.examine =
    c.withTargets.examine := rfl
  have harchive : ({ c with profile? := stale } : Config).resolveArchive = c.resolveArchive := rfl
  generalize ({ c with profile? := stale } : Config) = c₀ at hlisted hprepared hexamine harchive ⊢
  rw [prepare, prepare, hexamine, harchive, hprepared, hfresh.prepared, hlisted]
  simp only [Bool.false_eq_true, if_false]
  rw [Job.run_monad_bind, Job.run_monad_bind]
  cases (c.withTargets.examine.run perform d).1 with
  | error e => exact ⟨rfl, rfl⟩
  | ok p =>
    simp only [Job.run_monad_bind]
    cases (c.resolveArchive.run perform (c.withTargets.examine.run perform d).2).1 with
    | error e => exact ⟨rfl, rfl⟩
    | ok archive => exact ⟨rfl, rfl⟩

/-- Another attempt after a failed one has every file at least twice. -/
theorem targets_worn (hfresh : c.Fresh) (n : Nat) (stale : Option Profile) :
    (c.worn (n + 2) stale).targets =
      listed c.files ++ (listed c.files ++ (List.replicate n (listed c.files)).flatten) := by
  rw [worn, hfresh.targets, List.nil_append, List.replicate_succ, List.flatten_cons,
    List.replicate_succ, List.flatten_cons]

/-- Another attempt has no files but those that are listed. -/
theorem mem_listed_of_mem_worn (hfresh : c.Fresh) {n : Nat} {stale : Option Profile} {path : Text}
    (hpath : path ∈ (c.worn n stale).targets) : path ∈ listed c.files := by
  rw [worn, hfresh.targets, List.nil_append] at hpath
  obtain ⟨copy, hcopy, hmem⟩ := List.mem_flatten.1 hpath
  rwa [List.eq_of_mem_replicate hcopy] at hmem

/-- Another attempt finds each file a second time. -/
theorem not_nodup_worn (hfresh : c.Fresh) (hne : listed c.files ≠ []) (n : Nat)
    (stale : Option Profile) : ¬ (c.worn (n + 2) stale).targets.Nodup := by
  obtain ⟨path, hpath⟩ := List.exists_mem_of_ne_nil _ hne
  rw [targets_worn hfresh]
  exact fun hnodup => List.disjoint_of_nodup_append hnodup hpath (List.mem_append_left _ hpath)

/-- Another attempt is like the first one of an untouched configuration exactly if no files are
listed and no profile is left over: no attempt has failed only because there was no working
directory, or this attempt finds a profile itself. A profile that is left over is the only
difference without files. If there are files, the attempt fails in any case: at the first file that
is not in order, as the first attempt would, and otherwise because the files are listed more than
once. -/
theorem prepare_again_agrees_iff {errors : List ConfigError} (hfresh : c.Fresh)
    (hfailed : c.Attempts errors c') (herrors : errors ≠ []) (d : Disk) :
    let again := (c'.prepare.run perform d).1
    let anew := (c.prepare.run perform d).1
    let checked := ((checkTargets c.restoring (listed c.files)).run perform d).1
    ((again.1 = anew.1 ∧ again.2.targets = anew.2.targets ∧ again.2.profile? = anew.2.profile? ∧
        again.2.archive = anew.2.archive) ↔
      listed c.files = [] ∧
        ((∀ cause, .archiveUnresolved cause ∉ errors) ∨ anew.2.profile? ≠ none)) ∧
      (listed c.files = [] → again.1 = anew.1 ∧ again.2.targets = anew.2.targets ∧
        again.2.archive = anew.2.archive) ∧
      (listed c.files ≠ [] →
        (∀ e, checked = .error e → again.1 = .error e ∧ anew.1 = .error e) ∧
          (checked = .ok () → again.1 = .error .repeatedTarget)) := by
  obtain ⟨stale, rfl, hstale⟩ := hfailed.exists_eq hfresh
  obtain ⟨n, hn⟩ := Nat.exists_eq_succ_of_ne_zero (mt List.length_eq_zero_iff.1 herrors)
  rw [hn]
  have hprepared : (c.worn (n + 1) stale).prepared = false := hfresh.prepared
  have hfirst : c.withTargets.targets = listed c.files := by
    rw [withTargets, hfresh.targets, List.nil_append]
  have hagain : listed c.files ≠ [] → (c.worn (n + 1) stale).withTargets.targets ≠ [] := by
    intro hne
    rw [withTargets_worn, targets_worn hfresh]
    exact List.append_ne_nil_of_left_ne_nil hne _
  -- without files all that is left of the attempts is the profile
  have hnil : listed c.files = [] → ((c.worn (n + 1) stale).prepare.run perform d).1 =
      ((c.prepare.run perform d).1.1, { (c.prepare.run perform d).1.2 with
        profile? := (c.prepare.run perform d).1.2.profile?.or stale }) := by
    intro hnone
    rw [worn_of_nil hnone]
    exact Prod.ext (prepare_stale hfresh stale d).1 (prepare_stale hfresh stale d).2
  refine ⟨⟨?_, ?_⟩, ?_, fun hne => ⟨fun e hchecked => ⟨?_, ?_⟩, fun hchecked => ?_⟩⟩
  · rintro ⟨-, hsame, hprofile, -⟩
    -- the lists of files differ in length, unless both are empty
    have hnone : listed c.files = [] := by
      have htwice : listed c.files ++ (listed c.files ++ _) = listed c.files := calc
        _ = (c.worn (n + 1) stale).withTargets.targets := by
          rw [withTargets_worn, targets_worn hfresh]
        _ = (c.prepare.run perform d).1.2.targets :=
          (targets_prepare hprepared perform d).symm.trans hsame
        _ = listed c.files := (targets_prepare hfresh.prepared perform d).trans hfirst
      have hlength := congrArg List.length htwice
      rw [List.length_append, List.length_append] at hlength
      exact List.length_eq_zero_iff.1 (by omega)
    refine ⟨hnone, or_iff_not_imp_right.2 fun hanew => hstale.1 ?_⟩
    rw [hnil hnone] at hprofile
    simp only [not_not.1 hanew, Option.none_or] at hprofile
    exact hprofile
  · rintro ⟨hnone, hleft⟩
    rw [hnil hnone]
    refine ⟨rfl, rfl, ?_, rfl⟩
    rcases hleft with hleft | hfound
    · simp only [hstale.2 hleft, Option.or_none]
    · obtain ⟨p, hp⟩ := Option.ne_none_iff_exists'.1 hfound
      simp only [hp, Option.some_or]
  · intro hnone
    rw [hnil hnone]
    exact ⟨rfl, rfl, rfl⟩
  · refine fst_prepare_of_error hprepared (run_examine_of_error (hagain hne) ?_)
    rw [withTargets_worn, targets_worn hfresh]
    exact run_checkTargets_append_of_error hchecked _
  · refine fst_prepare_of_error hfresh.prepared (run_examine_of_error ?_ ?_)
    · rwa [hfirst]
    · rwa [hfirst]
  · -- every file that is listed has passed the check already
    refine fst_prepare_of_error hprepared (run_examine_of_repeated (hagain hne) ?_ ?_)
    · rw [withTargets_worn]
      exact not_nodup_worn hfresh hne n stale
    · rw [withTargets_worn]
      exact run_checkTargets_eq_ok_iff.2 fun path hpath =>
        run_checkTargets_eq_ok_iff.1 hchecked path (mem_listed_of_mem_worn hfresh hpath)

/-- An attempt that fails because of the memory for the archive, and one more. -/
theorem prepare_again_agrees_iff_cacheSize :
    let c := { blank with files := "a.rs, b.rs", cacheSize := 0 }
    let d := ((Disk.fresh "/work").put "a.rs" 0o644 []).put "b.rs" 0o644 []
    let c₁ := (c.prepare.run perform d).1.2
    c.Fresh ∧ (∃ e, c.Attempts [e] c₁) ∧ listed c.files ≠ [] ∧
      (c₁.prepare.run perform d).1.1 = .error .repeatedTarget := by
  intro c d c₁
  have hfresh : c.Fresh := ⟨rfl, rfl, rfl⟩
  obtain ⟨e, -, hattempts⟩ : ∃ e, _ ∧ c.Attempts [e] c₁ := Attempts.start.next (by decide +kernel)
  have hlisted : listed c.files ≠ [] := by decide +kernel
  have hchecked : ((checkTargets c.restoring (listed c.files)).run perform d).1.isOk = true := by
    decide +kernel
  refine ⟨hfresh, ⟨e, hattempts⟩, hlisted, ?_⟩
  refine ((prepare_again_agrees_iff hfresh hattempts (List.cons_ne_nil _ _) d).2.2 hlisted).2 ?_
  generalize ((checkTargets c.restoring (listed c.files)).run perform d).1 = checked at hchecked ⊢
  cases checked with
  | error e => cases hchecked
  | ok u => rfl

/-- A file that was missing at first is there at the second attempt, which fails nevertheless. -/
theorem prepare_fails_again :
    let c := { blank with files := "a.rs" }
    let d := Disk.fresh "/work"
    let d' := d.put "a.rs" 0o644 []
    let c₁ := (c.prepare.run perform d).1.2
    c.Fresh ∧ (c.prepare.run perform d).1.1.isOk = false ∧
      (c.prepare.run perform d').1.1.isOk = true ∧
      (c₁.prepare.run perform d').1.1.isOk = false :=
  ⟨⟨rfl, rfl, rfl⟩, by decide +kernel, by decide +kernel, by decide +kernel⟩

/-- A profile is left over from an attempt without a working directory when the file of the profile
has gone at the second one. -/
theorem prepare_keeps_stale_profile :
    let c := { blank with profileFile := "/p.toml", archive := "state", restoreAll := true,
                          restoring := true }
    let d := (⟨.empty, [Text.ofString "work"], .empty⟩ : Disk).put "/p.toml" 0o644 []
    let d' := Disk.fresh "/work"
    let c₁ := (c.prepare.run perform d).1.2
    c.Fresh ∧ listed c.files = [] ∧ (c.prepare.run perform d).1.1.isOk = false ∧
      (c₁.prepare.run perform d').1.2.profile?.isSome = true ∧
      (c.prepare.run perform d').1.2.profile? = none :=
  ⟨⟨rfl, rfl, rfl⟩, by decide +kernel, by decide +kernel, by decide +kernel, by decide +kernel⟩

end Config

end Reroute
