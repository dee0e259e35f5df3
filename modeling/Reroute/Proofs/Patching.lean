import Reroute.Batch
import Reroute.Proofs.Failure
import Reroute.Proofs.Vault

/-!
# What patching a file does to its workspace

A file goes through a profile in steps: load, pass, snapshot, store. Here the steps are followed
through all answers that a workspace may give. In the end the text was stored, or all files are as
they were; which of the two follows from the errors, except that a diff which cannot be shown comes
too late to keep the text from being stored.

## Main definitions

* `Profile.Recorded` — what the store holds by the time the text is stored
* `Profile.Committed` — what the last steps for a file may come to
* `Profile.Patched` — what patching a file may come to
* `FileOutcome.whole?` — what came of a file, unless the pass over it broke off

## Main results

* `Profile.always_patchFile` — patching a file
* `Profile.attemptFile_eq` — the same if the pass over the file may break off
* `Profile.file_eq_iff_of_errors` — when the files are as they were although there are errors
-/

namespace Reroute

/-- An error that stands for a pass which breaks off. -/
def FileError.breaksOff : FileError → Bool
  | .patch _ .malformedSignature => true
  | _ => false

/-- What came of a file, unless the pass over it broke off. -/
def FileOutcome.whole? (o : FileOutcome) : Option FileOutcome :=
  if o.error?.any FileError.breaksOff then none else some o

theorem FileOutcome.whole?_of_error? {o : FileOutcome}
    (h : o.error?.any FileError.breaksOff = false) : o.whole? = some o := by
  rw [whole?, h]
  rfl

theorem FileOutcome.whole?_of_ne_none {o : FileOutcome} (h : o.whole? ≠ none) :
    o.whole? = some o := by
  rw [whole?] at h ⊢
  split
  · rename_i hbreaks
    exact absurd (if_pos hbreaks) h
  · rfl

namespace Profile

open Job (Guard Goal)

open Vault (keyOf renewal?)

variable {G : Guard} {past : List WorkEvent} {c : Contents}
variable {cwd path before after : Text}

section Format

variable [Snapshot.Format]

/-- What the store holds by the time the text is stored: the snapshot, if one is to be taken. -/
inductive Recorded (cwd path before after : Text) (c : Contents) : Bool → Contents → Prop
  | skipped : Recorded cwd path before after c false c
  | kept {s : Snapshot}
    (hs : renewal? (Path.absolute cwd path) before after
      (c.blob (keyOf (Path.absolute cwd path))) = some s) :
    Recorded cwd path before after c true (c.keep (keyOf s.path) s.encode)

theorem Recorded.file_eq {snapshots : Bool} {c' : Contents}
    (h : Recorded cwd path before after c snapshots c') : c'.file = c.file := by
  cases h with
  | skipped => rfl
  | kept hs => rfl

/-- What the last steps for a file come to. -/
inductive Committed (cwd path before after : Text) (snapshots : Bool) (c : Contents) :
    Goal (Option FileError)
  /-- The work was given up, or no snapshot could be kept. -/
  | refused {e : FileError} {past : List WorkEvent} (hshown : e ≠ .notShown)
    (hearly : ∀ cause, e ≠ .notStored path cause)
    (hcause : (∃ event ∈ past, event.hinders = true) ∨ snapshots = true ∧
      renewal? (Path.absolute cwd path) before after
        (c.blob (keyOf (Path.absolute cwd path))) = none) :
    Committed cwd path before after snapshots c (some e) past c
  /-- The text could not be stored, but the snapshot had been kept by then. -/
  | unstored {cause : SourceError} {past : List WorkEvent} {c' : Contents}
    (hcause : ∃ event ∈ past, event.hinders = true)
    (hrecorded : Recorded cwd path before after c snapshots c') :
    Committed cwd path before after snapshots c (some (.notStored path cause)) past c'
  | done {past : List WorkEvent} {c' : Contents} (hstored : ⟨.store path after, .ok ()⟩ ∈ past)
    (hrecorded : Recorded cwd path before after c snapshots c') :
    Committed cwd path before after snapshots c none past (c'.write path after)

/-- What patching a file comes to. -/
inductive Patched (p : Profile) (cwd path : Text) (m : Mode) (c : Contents) : Goal FileOutcome
  /-- The file was given up before anything was kept. -/
  | failed {o : FileOutcome} {e : FileError} {past : List WorkEvent}
    (herror : o.error? = some e) (hdiff : m.diff = false → o.diff = []) (hshown : e ≠ .notShown)
    (hearly : ∀ cause, e ≠ .notStored path cause) :
    Patched p cwd path m c o past c
  /-- The text could not be stored, but the snapshot had been kept by then. -/
  | unstored {o : FileOutcome} {r : Report} {before after : Text} {cause : SourceError}
    {past : List WorkEvent} {c' : Contents} (herror : o.error? = some (.notStored path cause))
    (hdiff : m.diff = false → o.diff = []) (hfile : c.file path = some before)
    (happly : (p.apply before).result = .ok (after, r))
    (hrecorded : Recorded cwd path before after c m.snapshots c') :
    Patched p cwd path m c o past c'
  /-- There was nothing to store, or this is a preview. -/
  | idle {o : FileOutcome} {past : List WorkEvent} (herror : o.error? = none)
    (hdiff : m.diff = false → o.diff = []) (hdry : o.diff = [] ∨ m.dryRun = true)
    (hquiet : ∀ event ∈ past, event.stores path = false) :
    Patched p cwd path m c o past c
  | stored {o : FileOutcome} {r : Report} {before after : Text} {past : List WorkEvent}
    {c' : Contents} (herror : o.error? = none) (hdiff : m.diff = false → o.diff = [])
    (hdry : m.dryRun = false) (hfile : c.file path = some before)
    (happly : (p.apply before).result = .ok (after, r)) (hchanged : r.changed = true)
    (hstored : ⟨.store path after, .ok ()⟩ ∈ past)
    (hrecorded : Recorded cwd path before after c m.snapshots c') :
    Patched p cwd path m c o past (c'.write path after)

/-- The operations of a patch that a guard has to let through. -/
structure Allows (G : Guard) (cwd path : Text) (snapshots : Bool) (c : Contents) : Prop where
  isCancelled : ∀ past, G past c .isCancelled
  load : ∀ past, G past c (.load path)
  fetch : snapshots = true → ∀ past, G past c (.fetch (keyOf (Path.absolute cwd path)))
  keep : snapshots = true → ∀ past before after s, c.file path = some before →
    ⟨.load path, .ok before⟩ ∈ past →
    renewal? (Path.absolute cwd path) before after
      (c.blob (keyOf (Path.absolute cwd path))) = some s →
    G past c (.keep (keyOf s.path) s.encode)
  store : ∀ past before after c', c.file path = some before → ⟨.load path, .ok before⟩ ∈ past →
    Recorded cwd path before after c snapshots c' → G past c' (.store path after)

/-- The last steps: unless something fails, the text is stored once the snapshot was taken. -/
theorem always_commit {snapshots : Bool} (hG : Allows G cwd path snapshots c)
    (hfile : c.file path = some before) (hloaded : ⟨.load path, .ok before⟩ ∈ past) :
    (commit cwd path before after snapshots).Always G
      (Committed cwd path before after snapshots c) past c := by
  have hlast : ∀ {past' : List WorkEvent} (event : WorkEvent), event ∈ past' ++ [event] :=
    fun event => List.mem_append_right _ (List.mem_singleton_self event)
  rw [commit, Job.always_bind, Job.always_isCancelled]
  refine ⟨hG.isCancelled _, fun cancelled => ?_⟩
  cases cancelled with
  | true =>
    rw [if_pos rfl]
    exact .refused (by simp) (by simp) (.inl ⟨_, hlast _, rfl⟩)
  | false =>
    rw [if_neg Bool.false_ne_true]
    -- storing the text is the last operation, with and without a snapshot
    have hstore : ∀ past' c', past ⊆ past' → Recorded cwd path before after c snapshots c' →
        G past' c' (.store path after) ∧
          (∀ e, Committed cwd path before after snapshots c (some (.notStored path e))
            (past' ++ [⟨.store path after, .error e⟩]) c') ∧
          Committed cwd path before after snapshots c none
            (past' ++ [⟨.store path after, .ok ()⟩]) (c'.write path after) := by
      intro past' c' hsub hrecorded
      refine ⟨hG.store _ _ _ _ hfile (hsub hloaded) hrecorded, fun e => ?_, ?_⟩
      · exact .unstored ⟨_, hlast _, rfl⟩ hrecorded
      · exact .done (hlast _) hrecorded
    cases snapshots with
    | false =>
      refine Job.always_bind.2 (Job.always_store.2 ?_)
      exact hstore _ _ (List.subset_append_left _ _) .skipped
    | true =>
      refine Job.always_bind.2 (Vault.always_record (hG.fetch rfl _) ?_ ?_ ?_)
      · intro past' s hsub hs
        exact hG.keep rfl _ _ _ _ hfile (hsub (List.mem_append_left _ hloaded)) hs
      · intro past' e hcause
        exact .refused (by simp) (by simp) (hcause.imp_right fun hnone => ⟨rfl, hnone⟩)
      · intro past' s hsub hs
        refine Job.always_bind.2 (Job.always_store.2 ?_)
        exact hstore _ _ (fun _ h => hsub (List.mem_append_left _ h)) (.kept hs)

omit [Snapshot.Format] in
/-- The fingerprints of a report are those of the text and of what it has become. -/
theorem fingerprints_of_apply {p : Profile} {r : Report}
    (h : (p.apply before).result = .ok (after, r)) :
    r.before = .ofText before ∧ r.after = .ofText after := by
  rw [apply] at h
  cases hinstall : p.helper.install p.anchor before with
  | error e =>
    rw [hinstall] at h
    exact absurd h (by simp)
  | ok done =>
    simp only [hinstall] at h
    cases hunits : (p.patchUnits p.routes done.1).result with
    | error e =>
      rw [hunits] at h
      exact absurd h (by simp [Except.map])
    | ok units =>
      rw [hunits] at h
      cases h
      exact ⟨rfl, rfl⟩

omit [Snapshot.Format] in
/-- A text that counts as changed has changed. -/
theorem ne_of_changed {p : Profile} {r : Report} (h : (p.apply before).result = .ok (after, r))
    (hchanged : r.changed = true) : before ≠ after := by
  rintro rfl
  obtain ⟨hbefore, hafter⟩ := fingerprints_of_apply h
  rw [Report.changed, hbefore, hafter] at hchanged
  simp at hchanged

/-- What is done once the new text is known. -/
theorem always_finish {p : Profile} {m : Mode} {r : Report} (log : List Text)
    (hG : Allows G cwd path m.snapshots c) (hloaded : ⟨.load path, .ok before⟩ ∈ past)
    (hquiet : ∀ event ∈ past, event.stores path = false) (hfile : c.file path = some before)
    (happly : (p.apply before).result = .ok (after, r)) :
    (finish cwd path before after m log { r with path }).Always G (Patched p cwd path m c)
      past c := by
  have hsame : Report.changed { r with path } = r.changed := rfl
  have hdiff : m.diff = false → (if m.diff then Diff.unified path before after else []) = [] :=
    fun h => by rw [h, if_neg Bool.false_ne_true]
  rw [finish, hsame]
  cases hchanged : r.changed with
  | false => exact .idle rfl (fun _ => rfl) (.inl rfl) hquiet
  | true =>
    rw [if_neg (by decide)]
    cases hcheck : m.check with
    | true => exact .failed rfl hdiff (by simp) (by simp)
    | false =>
      rw [if_neg Bool.false_ne_true]
      cases hdry : m.dryRun with
      | true => exact .idle rfl hdiff (.inr hdry) hquiet
      | false =>
        rw [if_neg Bool.false_ne_true]
        -- the diff was made before the text is stored, but it is shown only afterwards
        refine Job.always_bind.2 ((always_commit hG hfile hloaded).imp ?_)
        intro answer past' c' hcommitted
        cases hcommitted with
        | refused hshown hearly _ => exact .failed rfl hdiff hshown hearly
        | unstored _ hrecorded => exact .unstored rfl hdiff hfile happly hrecorded
        | done hstored hrecorded =>
          exact .stored rfl hdiff hdry hfile happly hchanged hstored hrecorded

/-- A file through a profile. -/
theorem always_patchFile {p : Profile} {m : Mode} (hG : Allows G cwd path m.snapshots c) :
    (p.patchFile cwd m path).Always G (Patched p cwd path m c) [] c := by
  rw [patchFile, Job.always_bind, Job.always_isCancelled]
  refine ⟨hG.isCancelled _, fun cancelled => ?_⟩
  cases cancelled with
  | true => exact .failed rfl (fun _ => rfl) (by simp) (by simp)
  | false =>
    rw [if_neg Bool.false_ne_true, Job.always_bind, Job.always_load]
    refine ⟨hG.load _, fun e => .failed rfl (fun _ => rfl) (by simp) (by simp),
      fun before hfile => ?_⟩
    simp only
    cases happly : (p.apply before).result with
    | error e => exact .failed rfl (fun _ => rfl) (by simp) (by simp)
    | ok done =>
      refine always_finish _ hG (by simp) ?_ hfile happly
      simp [WorkEvent.stores]

/-- What patching a file in a workspace comes to. -/
theorem patched_patchFile {σ : Type} (w : Workspace σ) (p : Profile) (cwd path : Text) (m : Mode)
    (s : σ) :
    Patched p cwd path m (w.contents s) ((p.patchFile cwd m path).run w.handler s).1
      ((p.patchFile cwd m path).events w.handler s)
      (w.contents ((p.patchFile cwd m path).run w.handler s).2) := by
  have hguard : Allows (fun _ _ _ => True) cwd path m.snapshots (w.contents s) := by
    constructor <;> simp
  exact Job.Always.run w (always_patchFile hguard)

/-! ### Passes that break off -/

/-- The last steps for a file keep to the file. -/
theorem only_commit (cwd path before after : Text) (snapshots : Bool) :
    (commit cwd path before after snapshots).Only (WorkOp.FilesIn {path})
      fun e? => e?.any FileError.breaksOff = false := by
  refine (Job.only_perform trivial).bind fun cancelled _ => ?_
  cases cancelled with
  | true => rfl
  | false =>
    have hstore : (WorkOp.store path after).FilesIn {path} := rfl
    cases snapshots with
    | true =>
      refine (Vault.only_record _ cwd path before after).bind ?_
      rintro (e | _) -
      · rfl
      · refine (Job.only_perform hstore).bind ?_
        rintro (e | _) -
        · rfl
        · rfl
    | false =>
      refine (Job.only_perform hstore).bind ?_
      rintro (e | _) -
      · rfl
      · rfl

theorem only_finish (cwd path before after : Text) (m : Mode) (log : List Text) (r : Report) :
    (finish cwd path before after m log r).Only (WorkOp.FilesIn {path})
      fun o => o.error?.any FileError.breaksOff = false := by
  simp only [finish]
  split
  · rfl
  · split
    · rfl
    · split
      · rfl
      · refine (only_commit cwd path before after m.snapshots).bind fun e? he => ?_
        cases e? with
        | none => rfl
        | some e => exact he

/-- A file through a profile keeps to the file. -/
theorem only_patchFile (p : Profile) (cwd : Text) (m : Mode) (path : Text) :
    (p.patchFile cwd m path).Only (WorkOp.FilesIn {path}) fun _ => True := by
  refine (Job.only_perform trivial).bind fun cancelled _ => ?_
  cases cancelled with
  | true => trivial
  | false =>
    have hload : (WorkOp.load path).FilesIn {path} := rfl
    refine (Job.only_perform hload).bind ?_
    rintro (e | before) -
    · trivial
    · simp only
      split
      · trivial
      · exact (only_finish ..).imp (fun _ => id) fun _ _ => trivial

/-- A file through a profile, if the pass over it may break off. -/
theorem attemptFile_eq (p : Profile) (cwd : Text) (m : Mode) (path : Text) :
    p.attemptFile cwd m path = do return (← p.patchFile cwd m path).whole? := by
  rw [attemptFile, patchFile, Job.bind_assoc]
  refine congrArg _ (funext fun cancelled => ?_)
  cases cancelled with
  | true => rfl
  | false =>
    simp only [Bool.false_eq_true, if_false]
    rw [Job.bind_assoc]
    refine congrArg _ (funext fun loaded => ?_)
    cases loaded with
    | error e => rfl
    | ok before =>
      simp only [attempt?_eq]
      cases hpass : (p.apply before).result with
      | error e =>
        by_cases hmalformed : e = .malformedSignature
        · subst hmalformed
          rfl
        · have hgoesOn : (FileOutcome.failed (p.apply before).log (.patch path e)).error?.any
              FileError.breaksOff = false := by
            cases e with
            | malformedSignature => exact absurd rfl hmalformed
            | _ => rfl
          rw [handed?_error hmalformed]
          exact congrArg pure (FileOutcome.whole?_of_error? hgoesOn).symm
      | ok done =>
        rw [handed?_ok]
        exact (only_finish ..).bind_congr fun o ho => by rw [FileOutcome.whole?_of_error? ho]

/-! ### What the errors tell -/

omit [Snapshot.Format] in
/-- The errors of one file: its own, then that of the diff. -/
theorem snd_showAll_singleton (coloured : Bool) (sink : Sink) (o : FileOutcome) :
    (FileOutcome.showAll coloured sink [o]).2 =
      o.error?.toList ++ if (sink.putDiff coloured o.diff).2 then [] else [.notShown] := by
  have hall : (FileOutcome.showDiffs coloured sink [o]).2 = (sink.putDiff coloured o.diff).2 := by
    rw [FileOutcome.showDiffs]
    rcases sink.putDiff coloured o.diff with ⟨sink', _ | _⟩ <;> rfl
  have hown : [o].filterMap FileOutcome.error? = o.error?.toList := by
    cases herror : o.error? <;> simp [herror]
  simp only [FileOutcome.showAll, hall, hown]

omit [Snapshot.Format] in
/-- An empty diff is never refused. -/
theorem snd_putDiff_nil (coloured : Bool) (sink : Sink) : (sink.putDiff coloured []).2 = true := by
  rfl

namespace Patched

variable {p : Profile} {m : Mode} {o : FileOutcome} {c' : Contents}

/-- The refusal of a diff is not an error of the file itself. -/
theorem error?_ne (h : Patched p cwd path m c o past c') : o.error? ≠ some .notShown := by
  cases h with
  | failed herror _ hshown => simpa [herror] using hshown
  | unstored herror => simp [herror]
  | idle herror => simp [herror]
  | stored herror => simp [herror]

theorem diff_eq_nil (h : Patched p cwd path m c o past c') (hdiff : m.diff = false) :
    o.diff = [] := by
  cases h with
  | failed _ hnil => exact hnil hdiff
  | unstored _ hnil => exact hnil hdiff
  | idle _ hnil => exact hnil hdiff
  | stored _ hnil => exact hnil hdiff

/-- A file that was given up leaves all files as they were. -/
theorem file_eq_of_error (h : Patched p cwd path m c o past c') {e : FileError}
    (herror : o.error? = some e) : c'.file = c.file := by
  cases h with
  | failed => rfl
  | unstored _ _ _ _ hrecorded => exact hrecorded.file_eq
  | idle hnone => cases hnone.symm.trans herror
  | stored hnone => cases hnone.symm.trans herror

/-- A patch without an error leaves the vault alone, or it has recorded and stored the file. -/
theorem blob_eq_or_recorded (h : Patched p cwd path m c o past c') (herror : o.error? = none) :
    c'.blob = c.blob ∨ ∃ before after c₁, c.file path = some before ∧
      ⟨.store path after, .ok ()⟩ ∈ past ∧ Recorded cwd path before after c true c₁ ∧
      c' = c₁.write path after := by
  cases h with
  | failed hsome => cases herror.symm.trans hsome
  | unstored hsome => cases herror.symm.trans hsome
  | idle => exact .inl rfl
  | @stored _ _ before after _ c₁ _ _ _ hfile _ _ hstored hrecorded =>
    generalize m.snapshots = snapshots at hrecorded
    cases snapshots with
    | false =>
      cases hrecorded
      exact .inl rfl
    | true => exact .inr ⟨before, after, c₁, hfile, hstored, hrecorded, rfl⟩

/-- A file with a diff that was not given up has been stored, except in a preview. -/
theorem file_eq_iff_dryRun (h : Patched p cwd path m c o past c') (herror : o.error? = none)
    (hdiff : o.diff ≠ []) : c'.file = c.file ↔ m.dryRun = true := by
  cases h with
  | failed hsome => cases herror.symm.trans hsome
  | unstored hsome => cases herror.symm.trans hsome
  | idle _ _ hdry => exact ⟨fun _ => hdry.resolve_left hdiff, fun _ => rfl⟩
  | stored _ _ hdry hfile happly hchanged =>
    refine ⟨fun hsame => ?_, fun hpreview => absurd hpreview (by simp [hdry])⟩
    have htext := congrFun hsame path
    rw [Contents.file_write, Function.update_self, hfile] at htext
    exact absurd (Option.some.inj htext).symm (ne_of_changed happly hchanged)

end Patched

/-- A file that is patched with errors leaves all files as they are, unless the only error is that
its diff was refused and this is no preview: then the text was stored. Only a mode that makes diffs
has such errors. -/
theorem file_eq_iff_of_errors {σ : Type} (w : Workspace σ) (p : Profile) (cwd path : Text)
    (m : Mode) (s s' : σ) (o : FileOutcome) (coloured : Bool) (sink : Sink)
    (errors : List FileError) (hrun : (p.patchFile cwd m path).run w.handler s = (o, s'))
    (hshow : (FileOutcome.showAll coloured sink [o]).2 = errors) (herrors : errors ≠ []) :
    ((w.contents s').file = (w.contents s).file ↔ errors ≠ [.notShown] ∨ m.dryRun = true) ∧
      (.notShown ∈ errors → m.diff = true) := by
  have hpatched := patched_patchFile w p cwd path m s
  simp only [hrun] at hpatched
  rw [snd_showAll_singleton] at hshow
  constructor
  · cases herror : o.error? with
    | some e =>
      have hne : errors ≠ [.notShown] := by
        rintro rfl
        rw [herror] at hshow
        exact hpatched.error?_ne (herror.trans (congrArg some (List.cons.inj hshow).1))
      exact iff_of_true (hpatched.file_eq_of_error herror) (.inl hne)
    | none =>
      -- the refused diff is the only thing left that can have gone wrong
      have hrefused : (sink.putDiff coloured o.diff).2 = false := by
        by_contra haccepted
        rw [herror, if_pos (by simpa using haccepted)] at hshow
        exact herrors hshow.symm
      have hdiff : o.diff ≠ [] := by
        intro hnil
        rw [hnil, snd_putDiff_nil] at hrefused
        cases hrefused
      have honly : errors = [.notShown] := by
        rw [← hshow, herror, hrefused]
        rfl
      rw [hpatched.file_eq_iff_dryRun herror hdiff, honly]
      simp
  · intro hmem
    by_contra hmode
    have hnil := hpatched.diff_eq_nil (Bool.not_eq_true _ ▸ hmode)
    rw [← hshow, hnil, snd_putDiff_nil, if_pos rfl, List.append_nil, Option.mem_toList] at hmem
    exact hpatched.error?_ne hmem

end Format

/-- A text that cannot be stored leaves the file as it is, also if its diff is refused too. -/
theorem file_eq_of_failStore :
    let p : Profile := { standard with routes := standard.routes.take 1 }
    let mode : Mode := ⟨false, false, true, true⟩
    let w := Memory.workspace
    let m : Memory := ⟨Keyed.empty.insert "a.rs" "use std::sync::Arc;", Keyed.empty,
      ⟨false, false, false, true, []⟩, 0⟩
    let done := (p.patchFile "/work" mode "a.rs").run w.handler m
    (FileOutcome.showAll false ⟨some 0, true, []⟩ [done.1]).2 =
        [.notStored "a.rs" (.refused "store"), .notShown] ∧
      (w.contents done.2).file = (w.contents m).file := by
  intro p mode w m
  have herrors : (FileOutcome.showAll false ⟨some 0, true, []⟩
      [((p.patchFile "/work" mode "a.rs").run w.handler m).1]).2 =
        [.notStored "a.rs" (.refused "store"), .notShown] := by
    decide +kernel
  have hiff := file_eq_iff_of_errors w p "/work" "a.rs" mode m _ _ false ⟨some 0, true, []⟩ _
    (Prod.eta _).symm herrors (by simp)
  exact ⟨herrors, hiff.1.2 (.inl (by simp))⟩

/-- A sink that takes nothing: the diff is refused, but the text is stored. -/
theorem file_ne_of_refused_diff :
    let m : Memory := ⟨Keyed.empty.insert "a.rs" "use std::sync::Arc;", Keyed.empty, .none, 0⟩
    let done := (standard.patchFile "/work" ⟨false, false, true, true⟩ "a.rs").run Memory.perform m
    (FileOutcome.showAll false ⟨some 0, true, []⟩ [done.1]).2 = [.notShown] ∧
      done.2.contents.file "a.rs" ≠ m.contents.file "a.rs" := by
  decide +kernel

end Profile

end Reroute
