import Reroute.Proofs.Patching

/-!
# Previews

A file can be patched for real, in a dry run, or in a check. The three go the same way until the new
text is known; only then the mode decides what is done about it. So a preview shows what patching
the file would show, and it tells whether the file would be stored, provided that nothing comes in
between when it is patched for real.

## Main definitions

* `Profile.survey` — the steps of a patch up to the point where the new text is known
* `Profile.Surveyed` — what a survey may come to

## Main results

* `Profile.patchFile_eq_survey` — a patch in any mode starts with a survey
* `Profile.stored_of_commit` — what is surveyed as a change is stored if nothing comes in between
* `Profile.previews_agree` — dry runs and checks agree with patching for real
-/

namespace Reroute.Profile

open Job (Goal)

open Vault (keyOf renewal?)

/-! ### Surveys -/

section Format

variable [Snapshot.Format]

/-- What is known of a file before anything is done about it. -/
structure Survey where
  before : Text
  after : Text
  log : List Text
  report : Report

/-- The steps of a patch up to the point where the new text is known, or the file is given up. -/
def survey (p : Profile) (path : Text) : WorkJob (Except FileOutcome Survey) := do
  if ← WorkOp.isCancelled.perform then return .error (.failed [] .cancelled)
  match ← (WorkOp.load path).perform with
  | .error e => return .error (.failed [] (.source e))
  | .ok before =>
    let pass := p.apply before
    match pass.result with
    | .error e => return .error (.failed pass.log (.patch path e))
    | .ok (after, r) => return .ok ⟨before, after, pass.log, { r with path }⟩

/-- What is done after a survey. -/
def conclude (cwd path : Text) (m : Mode) : Except FileOutcome Survey → WorkJob FileOutcome
  | .error o => pure o
  | .ok v => finish cwd path v.before v.after m v.log v.report

variable {p : Profile} {cwd path : Text} {m : Mode} {c : Contents}

/-- A patch is a survey, which no mode has an influence on, and what the mode makes of it. -/
theorem patchFile_eq_survey : p.patchFile cwd m path = p.survey path >>= conclude cwd path m := by
  refine congrArg (Job.ask (I := workInterface) WorkOp.isCancelled) (funext fun cancelled => ?_)
  cases cancelled with
  | true => rfl
  | false =>
    refine congrArg (Job.ask (I := workInterface) (WorkOp.load path)) (funext fun answer => ?_)
    cases answer with
    | error e => rfl
    | ok before =>
      cases h : (p.apply before).result with
      | error e =>
        simp only [Job.bind, h]
        rfl
      | ok done =>
        simp only [Job.bind, h]
        rfl

/-- What a survey comes to, with the operations that it took. It leaves everything as it is. -/
inductive Surveyed (p : Profile) (path : Text) (c : Contents) : Goal (Except FileOutcome Survey)
  | cancelled :
    Surveyed p path c (.error (.failed [] .cancelled)) [⟨.isCancelled, true⟩] c
  | unloaded {e : SourceError} :
    Surveyed p path c (.error (.failed [] (.source e)))
      [⟨.isCancelled, false⟩, ⟨.load path, .error e⟩] c
  | unpatched {before : Text} {e : PatchError} (happly : (p.apply before).result = .error e) :
    Surveyed p path c (.error (.failed (p.apply before).log (.patch path e)))
      [⟨.isCancelled, false⟩, ⟨.load path, .ok before⟩] c
  | seen {before after : Text} {r : Report} (hfile : c.file path = some before)
    (happly : (p.apply before).result = .ok (after, r)) :
    Surveyed p path c (.ok ⟨before, after, (p.apply before).log, { r with path }⟩)
      [⟨.isCancelled, false⟩, ⟨.load path, .ok before⟩] c

omit [Snapshot.Format] in
theorem always_survey :
    (p.survey path).Always (fun _ _ _ => True) (Surveyed p path c) [] c := by
  rw [survey, Job.always_bind, Job.always_isCancelled]
  refine ⟨trivial, fun cancelled => ?_⟩
  cases cancelled with
  | true => exact .cancelled
  | false =>
    rw [if_neg Bool.false_ne_true, Job.always_bind, Job.always_load]
    refine ⟨trivial, fun e => .unloaded, fun before hfile => ?_⟩
    simp only
    cases happly : (p.apply before).result with
    | error e => exact .unpatched happly
    | ok done => exact .seen hfile happly

omit [Snapshot.Format] in
/-- What a survey in a workspace comes to. -/
theorem surveyed_survey {σ : Type} (w : Workspace σ) (p : Profile) (path : Text) (s : σ) :
    Surveyed p path (w.contents s) ((p.survey path).run w.handler s).1
      ((p.survey path).events w.handler s) (w.contents ((p.survey path).run w.handler s).2) :=
  Job.Always.run w always_survey

/-! ### What the modes make of a survey -/

section Finish

variable (cwd path before after : Text) (log : List Text) {m : Mode} {r : Report}

/-- A text that has not changed is left alone in every mode. -/
theorem exists_finish_of_unchanged (m : Mode) (hchanged : r.changed = false) :
    ∃ log', finish cwd path before after m log r = pure ⟨log', some r, [], none⟩ := by
  rw [finish, hchanged]
  exact ⟨_, rfl⟩

theorem finish_of_check (hchanged : r.changed = true) (hcheck : m.check = true) :
    finish cwd path before after m log r =
      pure ⟨log, some r, if m.diff then Diff.unified path before after else [],
        some (.wouldChange path)⟩ := by
  rw [finish, hchanged, hcheck]
  rfl

theorem exists_finish_of_dryRun (hchanged : r.changed = true) (hcheck : m.check = false)
    (hdry : m.dryRun = true) :
    ∃ log', finish cwd path before after m log r =
      pure ⟨log', some r, if m.diff then Diff.unified path before after else [], none⟩ := by
  rw [finish, hchanged, hcheck, hdry]
  exact ⟨_, rfl⟩

theorem exists_finish_of_write (hchanged : r.changed = true) (hcheck : m.check = false)
    (hdry : m.dryRun = false) :
    ∃ logOf : Option FileError → List Text, finish cwd path before after m log r =
      commit cwd path before after m.snapshots >>= fun error? =>
        pure ⟨logOf error?, some r, if m.diff then Diff.unified path before after else [],
          error?⟩ := by
  rw [finish, hchanged, hcheck, hdry]
  let line : Text := "Patched" ++ " " ++ path ++ ": " ++ r.summary
  refine ⟨fun error? => if error?.isSome then log else log ++ [line], ?_⟩
  refine congrArg (Job.bind (commit cwd path before after m.snapshots)) (funext fun error? => ?_)
  cases error? with
  | none => rfl
  | some e => rfl

end Finish

section Calm

variable {before after : Text}

/-- A vault that can be read has a snapshot to keep for every text. -/
theorem renewal?_ne_none {blob? : Option Text}
    (hreadable : ∀ blob, blob? = some blob → (Snapshot.decode? blob).isSome) :
    renewal? (Path.absolute cwd path) before after blob? ≠ none := by
  cases blob? with
  | none => simp [renewal?]
  | some blob =>
    obtain ⟨snapshot, hsnapshot⟩ := Option.isSome_iff_exists.1 (hreadable blob rfl)
    simp [renewal?, hsnapshot]

/-- The last steps store the text if nothing comes in between and the vault can be read. -/
theorem stored_of_commit {σ : Type} (w : Workspace σ) {s : σ} {past : List WorkEvent}
    {snapshots : Bool} (hfile : (w.contents s).file path = some before)
    (hloaded : ⟨.load path, .ok before⟩ ∈ past)
    (hworks : ∀ event ∈ past ++ (commit cwd path before after snapshots).events w.handler s,
      event.hinders = false)
    (hreadable : snapshots = true → ∀ blob,
      (w.contents s).blob (keyOf (Path.absolute cwd path)) = some blob →
        (Snapshot.decode? blob).isSome) :
    ((commit cwd path before after snapshots).run w.handler s).1 = none ∧
      ∃ event ∈ past ++ (commit cwd path before after snapshots).events w.handler s,
        event.stores path = true := by
  have hguard : Allows (fun _ _ _ => True) cwd path snapshots (w.contents s) := by
    constructor <;> simp
  have hcommitted : Committed cwd path before after snapshots (w.contents s) _ _ _ :=
    (always_commit hguard hfile hloaded).run w
  have hcalm : ¬∃ event ∈ past ++ (commit cwd path before after snapshots).events w.handler s,
      event.hinders = true := by
    rintro ⟨event, hmem, hevent⟩
    simp [hworks event hmem] at hevent
  generalize (commit cwd path before after snapshots).run w.handler s = done at hcommitted ⊢
  generalize past ++ (commit cwd path before after snapshots).events w.handler s = events
    at hcommitted hcalm ⊢
  obtain ⟨answer, s'⟩ := done
  generalize w.contents s' = c' at hcommitted
  cases hcommitted with
  | refused _ _ hcause =>
    rcases hcause with hhindered | ⟨hsnapshots, hnone⟩
    · exact absurd hhindered hcalm
    · exact absurd hnone (renewal?_ne_none (hreadable hsnapshots))
  | unstored hhindered _ => exact absurd hhindered hcalm
  | done hstored _ => exact ⟨rfl, _, hstored, by simp [WorkEvent.stores]⟩

end Calm

/-- A file is patched for real, in a dry run and in a check, each from the same state. Of patching
it for real only this is asked: the work is not given up, no operation fails except perhaps loading
the file, and a snapshot that is there can be read. Then all three give the same report and show the
same diff; if the file cannot be loaded or its text cannot be patched, they give the same error;
neither preview touches anything; and the check objects to the file exactly if patching it for real
stores it, which is exactly if the dry run reports a change. -/
theorem previews_agree {σ : Type} (w : Workspace σ) (p : Profile) (cwd path : Text) (m : Mode)
    (s : σ) (coloured : Bool) (sink : Sink)
    (hworks : ∀ event ∈ (p.patchFile cwd { m with dryRun := false, check := false } path).events
      w.handler s, event.hinders = false)
    (hreadable : m.snapshots = true → ∀ blob,
      (w.contents s).blob (keyOf (Path.absolute cwd path)) = some blob →
        (Snapshot.decode? blob).isSome) :
    let write := (p.patchFile cwd { m with dryRun := false, check := false } path).run w.handler s
    let dry := (p.patchFile cwd { m with dryRun := true, check := false } path).run w.handler s
    let check := (p.patchFile cwd { m with check := true } path).run w.handler s
    let events :=
      (p.patchFile cwd { m with dryRun := false, check := false } path).events w.handler s
    let shown (o : FileOutcome) : Text := (FileOutcome.showAll coloured sink [o]).1.output
    (dry.1.report? = write.1.report? ∧ check.1.report? = write.1.report?) ∧
    (shown dry.1 = shown write.1 ∧ shown check.1 = shown write.1) ∧
    (∀ e, [⟨.isCancelled, false⟩, ⟨.load path, .error e⟩] <+: events →
      ∀ o ∈ [write.1, dry.1, check.1], o.error? = some (.source e)) ∧
    (∀ before e, [⟨.isCancelled, false⟩, ⟨.load path, .ok before⟩] <+: events →
      (p.apply before).result = .error e →
      ∀ o ∈ [write.1, dry.1, check.1], o.error? = some (.patch path e)) ∧
    (w.contents dry.2 = w.contents s ∧ w.contents check.2 = w.contents s) ∧
    (check.1.error? = some (.wouldChange path) ↔ ∃ event ∈ events, event.stores path = true) ∧
    ((∃ event ∈ events, event.stores path = true) ↔
      ∃ r, dry.1.report? = some r ∧ r.changed = true) := by
  have hsurveyed := surveyed_survey w p path s
  simp only [patchFile_eq_survey, Job.run_monad_bind, Job.events_bind] at hworks ⊢
  -- from here on the survey is what it came to
  generalize (p.survey path).run w.handler s = surveyed at hworks hsurveyed ⊢
  generalize (p.survey path).events w.handler s = past at hworks hsurveyed ⊢
  obtain ⟨v, s'⟩ := surveyed
  generalize hsame : w.contents s' = c at hsurveyed
  cases hsurveyed with
  | cancelled => simp [WorkEvent.hinders] at hworks
  | unloaded =>
    -- a survey that gives the file up leaves nothing for a mode to decide
    refine ⟨⟨rfl, rfl⟩, ⟨rfl, rfl⟩, ?_, ?_, ⟨hsame, hsame⟩, ?_, ?_⟩
    all_goals simp [conclude, FileOutcome.failed, WorkEvent.stores]
  | @unpatched before e happly =>
    refine ⟨⟨rfl, rfl⟩, ⟨rfl, rfl⟩, ?_, ?_, ⟨hsame, hsame⟩, ?_, ?_⟩
    · simp [conclude]
    · intro before' e' hprefix happly'
      obtain rfl : before' = before := by simpa [conclude] using hprefix
      cases happly.symm.trans happly'
      simp [conclude, FileOutcome.failed]
    · simp [conclude, FileOutcome.failed, WorkEvent.stores]
    · simp [conclude, FileOutcome.failed, WorkEvent.stores]
  | @seen before after r hfile happly =>
    have hpatched : ∀ before' e, before' = before → (p.apply before').result ≠ .error e := by
      rintro before' e rfl
      simp [happly]
    simp only [conclude] at hworks ⊢
    cases hchanged : Report.changed { r with path } with
    | false =>
      have hidle := fun m =>
        exists_finish_of_unchanged cwd path before after (p.apply before).log m hchanged
      obtain ⟨_, hwrite⟩ := hidle { m with dryRun := false, check := false }
      obtain ⟨_, hdry⟩ := hidle { m with dryRun := true, check := false }
      obtain ⟨_, hcheck⟩ := hidle { m with check := true }
      rw [hwrite, hdry, hcheck]
      refine ⟨⟨rfl, rfl⟩, ⟨rfl, rfl⟩, ?_, ?_, ⟨hsame, hsame⟩, ?_, ?_⟩
      · simp
      · intro before' e hprefix herror
        exact absurd herror (hpatched before' e (by simpa using hprefix))
      · simp [WorkEvent.stores]
      · simp [WorkEvent.stores, hchanged]
    | true =>
      -- only here the modes part: one goes on to store the text, the other two stop
      obtain ⟨logOf, hwrite⟩ := exists_finish_of_write cwd path before after (p.apply before).log
        (m := { m with dryRun := false, check := false }) hchanged rfl rfl
      obtain ⟨_, hdry⟩ := exists_finish_of_dryRun cwd path before after (p.apply before).log
        (m := { m with dryRun := true, check := false }) hchanged rfl rfl
      have hcheck := finish_of_check cwd path before after (p.apply before).log
        (m := { m with check := true }) hchanged rfl
      rw [hwrite, Job.events_bind] at hworks
      rw [hwrite, hdry, hcheck, Job.run_monad_bind, Job.events_bind]
      simp only [Job.events_pure, List.append_nil] at hworks ⊢
      rw [← hsame] at hfile hreadable
      obtain ⟨hdone, hstored⟩ := stored_of_commit w hfile (by simp) hworks hreadable
      refine ⟨⟨rfl, rfl⟩, ⟨rfl, rfl⟩, ?_, ?_, ⟨hsame, hsame⟩, ?_, ?_⟩
      · simp
      · intro before' e hprefix herror
        exact absurd herror (hpatched before' e (by simpa using hprefix))
      · exact iff_of_true rfl hstored
      · exact iff_of_true hstored ⟨_, rfl, hchanged⟩

end Format

/-- Only the helper has to be installed. The check objects to the file, the dry run gives the report
and the diff of patching it for real, and neither touches anything. -/
theorem previews_agree_on_install :
    let p : Profile := { standard with
      helper := ⟨"log", "fn log", "\nfn log();"⟩, routes := [⟨"read_file", "read", "p", "\"s\""⟩] }
    let mode : Mode := ⟨false, false, true, true⟩
    let w := Memory.workspace
    let m : Memory := ⟨Keyed.empty.insert "/a.rs" "use std::sync::Arc;", Keyed.empty, .none, 0⟩
    let write := (p.patchFile "/work" mode "/a.rs").run w.handler m
    let dry := (p.patchFile "/work" { mode with dryRun := true } "/a.rs").run w.handler m
    let check := (p.patchFile "/work" { mode with check := true } "/a.rs").run w.handler m
    check.1.error? = some (.wouldChange "/a.rs") ∧ dry.1.report? = write.1.report? ∧
      (FileOutcome.showAll false .unlimited [dry.1]).1.output =
        (FileOutcome.showAll false .unlimited [write.1]).1.output ∧
      w.contents dry.2 = w.contents m ∧ w.contents check.2 = w.contents m := by
  intro p mode w m
  have hworks : ((p.patchFile "/work" mode "/a.rs").events w.handler m).all (!·.hinders) =
      true := by
    decide +kernel
  have hstores : ((p.patchFile "/work" mode "/a.rs").events w.handler m).any
      (·.stores "/a.rs") = true := by
    decide +kernel
  have hnone : (w.contents m).blob (keyOf (Path.absolute "/work" "/a.rs")) = none := by
    decide +kernel
  obtain ⟨hreports, hshown, -, -, hsame, hcheck, -⟩ :=
    previews_agree w p "/work" "/a.rs" mode m false .unlimited
      (fun event hmem => by simpa using List.all_eq_true.1 hworks event hmem)
      (fun _ blob hblob => by cases hnone.symm.trans hblob)
  exact ⟨hcheck.2 (List.any_eq_true.1 hstores), hreports.1, hshown.1, hsame⟩

end Reroute.Profile
